import Ustack.Ledger
import Ustack.MainLoop
import Ustack.Translation

/-!
# Where the packets are

In every run of the main loops a packet is in exactly one place: the free pool of its
owner, a ring or its pool, a work list of a process, or a queue between two processes.

Each step moves packets from one place to another (`Ledger.Move`), so what has to be
carried along is who may have which packet, and in which state. A packet on its way to
process `r`, in a queue or in the list of what `r` received from others, is returned to its
owner exactly if `r` owns it and otherwise dispatched; so no other state is met where the
dispatcher looks at it. A process frees what it owns: the packets it got from its own rings,
those returned to it, and of its list `to_reclaim` those `dispatch_reclaim` left there.
-/

/-! ## Places -/

/-- Where a process can have a packet. -/
inductive ProcPlace (A : ℕ)
  /-- In the free pool. -/
  | free
  /-- In a slot of a receive ring. -/
  | rxRing (a : Fin A)
  /-- In the pool of a receive ring. -/
  | rxPool (a : Fin A)
  /-- In the pool of a transmit ring. -/
  | txPool (a : Fin A)
  /-- In a slot of a transmit ring. -/
  | txRing (a : Fin A)
  /-- In `recv_from_driver`. -/
  | recvFromDriver
  /-- In `recv_from_dispatch`. -/
  | recvFromDispatch
  /-- In `to_reclaim`. -/
  | toReclaim
  /-- In `free_head`. -/
  | freeHead
deriving DecidableEq

/-- Where a packet can be. -/
inductive Place (n A : ℕ)
  /-- In a place of a process. -/
  | proc (i : Fin n) (x : ProcPlace A)
  /-- In the list of the queue to process `r` from process `c`. -/
  | pending (r c : Fin n)
  /-- In the slots of that queue. -/
  | slots (r c : Fin n)
deriving DecidableEq

/-- What a process has in its places. -/
def Process.contents {A : ℕ} (p : Process A) : Ledger (ProcPlace A) ℕ
  | .free => p.free_packet_pool.list
  | .rxRing a => (p.adapter a).rx_ring.slots
  | .rxPool a => (p.adapter a).rx_ring.pool.list
  | .txPool a => (p.adapter a).tx_ring.pool.list
  | .txRing a => (p.adapter a).tx_ring.slots
  | .recvFromDriver => p.recv_from_driver
  | .recvFromDispatch => p.recv_from_dispatch
  | .toReclaim => p.to_reclaim
  | .freeHead => p.free_head

/-- What is in every place. -/
def World.contents {n A : ℕ} (w : World n A) : Ledger (Place n A) ℕ
  | .proc i x => (w.proc i).contents x
  | .pending r c => (w.link r c).queue.list
  | .slots r c => (w.link r c).slots

/-! ## The invariant -/

/-- The state of a packet on its way to process `r`. -/
def queuedState (r owner : ℕ) : LfqState := if owner = r then .reclaim else .dispatch

/-- Whose packets may be in a place of process `i`, and in which state. -/
def ProcPlace.Fits {A : ℕ} (i owner : ℕ) (s : LfqState) : ProcPlace A → Prop
  | .free | .rxRing _ | .rxPool _ | .recvFromDriver | .freeHead => owner = i
  | .recvFromDispatch => s = queuedState i owner
  | .toReclaim | .txPool _ | .txRing _ => True

/-- Whose packets may be in a place, and in which state. -/
def Place.Fits {n A : ℕ} (owner : ℕ) (s : LfqState) : Place n A → Prop
  | .proc i x => x.Fits i owner s
  | .pending r c | .slots r c =>
    r ≠ c ∧ (owner = r ∨ owner = c) ∧ s = queuedState r owner

/-- The part of `to_reclaim` that `dispatch_reclaim` has been over. -/
def MainPc.settled (to_reclaim : List ℕ) : MainPc → List ℕ
  | .dispatchReclaim k => to_reclaim.take k
  | .flush .reclaim _ | .zoneReclaimFree | .zoneReclaim => to_reclaim
  | _ => []

/-- The rings of a process are in order, and its pools count their packets. -/
structure Process.RingsOk {A : ℕ} (p : Process A) : Prop where
  /-- The free pool. -/
  free : p.free_packet_pool.Counted
  /-- The receive rings. -/
  rx : ∀ a, (p.adapter a).rx_ring.Ok ∧ (p.adapter a).rx_ring.pool.Counted
  /-- The transmit rings. -/
  tx : ∀ a, (p.adapter a).tx_ring.Ok ∧ (p.adapter a).tx_ring.pool.Counted

/-- **The invariant of a process.** -/
structure Process.Ok {A : ℕ} (owner : ℕ → ℕ) (i : ℕ) (p : Process A) : Prop where
  /-- The rings are in order. -/
  rings : p.RingsOk
  /-- What is left to reclaim is its own. -/
  settled : ∀ q ∈ p.pc.settled p.to_reclaim, owner q = i
  /-- It goes on. -/
  running : p.pc ≠ .exited

/-- **The invariant of all processes**, over the packets there are and who owns them. -/
structure World.Inv {n A : ℕ} (items : Set ℕ) (owner : ℕ → ℕ) (w : World n A) : Prop where
  /-- A packet is in exactly one place. -/
  exclusive : w.contents.Exclusive items
  /-- A packet knows its name. -/
  phys : ∀ p ∈ items, (w.packet p).phys = p
  /-- A packet knows its owner. -/
  id : ∀ p ∈ items, (w.packet p).id = owner p
  /-- A packet may be where it is. -/
  fits : ∀ x, ∀ p ∈ w.contents x, x.Fits (owner p) (w.packet p).lfq_state
  /-- The processes. -/
  proc : ∀ i, (w.proc i).Ok owner i
  /-- The queues. -/
  link : ∀ r c, ∃ T W R, (w.link r c).Inv lfqDescNum T W R

/-! ## What processing hands to the driver -/

section Sent

variable {malloc : Option ℕ} {t : Tables} {pkt : Packet}

theorem sent_connectionLookup (t : Tables) (ip : IpAddress) (port : UInt16) (proto : UInt8)
    (is_client : Bool) : (connectionLookup t ip port proto is_client).2.sent = t.sent := by
  rw [(assigns_connectionLookup t ip port proto is_client).eq]

theorem sent_connectionCreate (malloc : Option ℕ) (t : Tables) (pkt : Packet) (vs : ℕ) :
    (connectionCreate malloc t pkt vs).2.sent = t.sent := by
  unfold connectionCreate
  dsimp only
  split
  · rfl
  · rename_i cp _
    have hsetup := (setsUp_connectionSetup
      { t with conn_mem_pool := (memPoolAlloc malloc t.conn_mem_pool).2 } cp pkt vs).eq
    have hsent := congrArg Tables.sent hsetup
    split
    · exact hsent
    · refine Eq.trans ?_ hsent
      unfold connectionAdd
      dsimp only
      split <;> rfl

/-- Finding the connection of a packet hands nothing to the driver. -/
theorem sent_processFindConnection (malloc : Option ℕ) (t : Tables) (pkt : Packet) :
    (processFindConnection malloc t pkt).2.sent = t.sent := by
  unfold processFindConnection
  split
  · unfold processFindClient
    split
    · rfl
    · rename_i vs _
      have hlookup := sent_connectionLookup t pkt.saddr.ip pkt.saddr.port pkt.protocol_ip true
      generalize connectionLookup t pkt.saddr.ip pkt.saddr.port pkt.protocol_ip true = r at hlookup
      obtain ⟨cp, t'⟩ := r
      cases cp with
      | some cp => exact hlookup
      | none =>
        dsimp only
        have hcreate := sent_connectionCreate malloc t' pkt vs
        generalize connectionCreate malloc t' pkt vs = r at hcreate
        obtain ⟨cp, t''⟩ := r
        cases cp <;> exact hcreate.trans hlookup
  · unfold processFindServer
    dsimp only
    have hlookup := sent_connectionLookup t pkt.daddr.ip pkt.daddr.port pkt.protocol_ip
      (ngInterfaceLookupSelfip t.hash_rand t.itf pkt.daddr.ip).isNone
    generalize connectionLookup t pkt.daddr.ip pkt.daddr.port pkt.protocol_ip
      (ngInterfaceLookupSelfip t.hash_rand t.itf pkt.daddr.ip).isNone = r at hlookup
    obtain ⟨cp, t'⟩ := r
    cases cp <;> exact hlookup

/-- What processing may change of a packet: its frame and its adapter. -/
def Packet.SameHeaders (pkt out : Packet) : Prop :=
  out = { pkt with data := out.data, adapter_idx := out.adapter_idx }

theorem Packet.SameHeaders.fields {pkt out : Packet} (h : pkt.SameHeaders out) :
    out.phys = pkt.phys ∧ out.id = pkt.id ∧ out.lfq_state = pkt.lfq_state := by
  rw [SameHeaders] at h
  rw [h]
  exact ⟨rfl, rfl, rfl⟩

/-- **The driver gets a packet exactly if it is stolen**, and gets it once. -/
theorem mainProcessPackets_spec (malloc : Option ℕ) (t : Tables) (pkt : Packet) :
    pkt.SameHeaders (mainProcessPackets malloc t pkt).2.1
      ∧ (mainProcessPackets malloc t pkt).2.2.sent
        = t.sent ++ (if (mainProcessPackets malloc t pkt).1 = .stolen
          then [(mainProcessPackets malloc t pkt).2.1] else []) := by
  unfold mainProcessPackets
  split
  · have hfind := sent_processFindConnection malloc t pkt
    unfold processIpPacket
    generalize processFindConnection malloc t pkt = r at hfind
    obtain ⟨found, t'⟩ := r
    cases found with
    | drop => exact ⟨rfl, by simpa using hfind⟩
    | none => exact ⟨rfl, by simpa using hfind⟩
    | connection cp is_client =>
      have hsent := sent_processForward t' cp pkt is_client
      have hret : (processForward t' cp pkt is_client).1 = .stolen := by rw [processForward_eq]
      have hout : (processForward t' cp pkt is_client).2.1
          = processRewrite t' (t'.conn cp) pkt is_client := by rw [processForward_eq]
      dsimp only at hfind ⊢
      have hfields := processRewrite_fields t' (t'.conn cp) pkt is_client
      have hidx := congrArg Packet.adapter_idx hfields
      rw [if_pos hret, hout, hsent, hfind]
      refine ⟨?_, rfl⟩
      rw [Packet.SameHeaders, hidx]
      exact hfields
  · split
    · obtain ⟨-, hsent, hpkt⟩ := arpHandler_spec t pkt
      exact ⟨hpkt, hsent⟩
    · exact ⟨rfl, by simp⟩

end Sent

/-! ## Moves -/

section Moves

variable {n A : ℕ} {p : Process A} {a : Fin A} {r : DescRing} {z : ProcPlace A}

namespace Process

@[simp] theorem contents_goto (p : Process A) (pc : MainPc) : (p.goto pc).contents = p.contents :=
  rfl

theorem contents_setRx_of_ne (hring : z ≠ .rxRing a) (hpool : z ≠ .rxPool a) :
    (p.setRx a r).contents z = p.contents z := by
  cases z with
  | rxRing b => rw [contents, contents, adapter_setRx_of_ne (fun he => hring (congrArg _ he))]
  | rxPool b => rw [contents, contents, adapter_setRx_of_ne (fun he => hpool (congrArg _ he))]
  | txPool b => rw [contents, contents, tx_ring_setRx]
  | txRing b => rw [contents, contents, tx_ring_setRx]
  | _ => rfl

theorem contents_setTx_of_ne (hring : z ≠ .txRing a) (hpool : z ≠ .txPool a) :
    (p.setTx a r).contents z = p.contents z := by
  cases z with
  | txRing b => rw [contents, contents, adapter_setTx_of_ne (fun he => hring (congrArg _ he))]
  | txPool b => rw [contents, contents, adapter_setTx_of_ne (fun he => hpool (congrArg _ he))]
  | rxPool b => rw [contents, contents, rx_ring_setTx]
  | rxRing b => rw [contents, contents, rx_ring_setTx]
  | _ => rfl

/-- The NIC takes no packet. -/
theorem contents_nicRecv (p : Process A) (a : Fin A) (k : ℕ) (len : UInt16) :
    (p.setRx a ((p.adapter a).rx_ring.complete k len)).contents = p.contents := by
  funext z
  by_cases hring : z = .rxRing a
  · rw [hring, contents, contents, adapter_setRx]
    rfl
  · by_cases hpool : z = .rxPool a
    · rw [hpool, contents, contents, adapter_setRx]
      rfl
    · exact contents_setRx_of_ne hring hpool

theorem contents_nicSent (p : Process A) (a : Fin A) (k : ℕ) :
    (p.setTx a ((p.adapter a).tx_ring.complete k ((p.adapter a).tx_ring.length k))).contents
      = p.contents := by
  funext z
  by_cases hring : z = .txRing a
  · rw [hring, contents, contents, adapter_setTx]
    rfl
  · by_cases hpool : z = .txPool a
    · rw [hpool, contents, contents, adapter_setTx]
      rfl
    · exact contents_setTx_of_ne hring hpool

theorem contents_setFree_of_ne (p : Process A) (pool : PacketPool) (hz : z ≠ .free) :
    contents { p with free_packet_pool := pool } z = p.contents z := by
  cases z with
  | free => exact absurd rfl hz
  | _ => rfl

theorem contents_setRecvFromDriver_of_ne (p : Process A) (l : List ℕ)
    (hz : z ≠ .recvFromDriver) : contents { p with recv_from_driver := l } z = p.contents z := by
  cases z with
  | recvFromDriver => exact absurd rfl hz
  | _ => rfl

theorem contents_setRecvFromDispatch_of_ne (p : Process A) (l : List ℕ)
    (hz : z ≠ .recvFromDispatch) :
    contents { p with recv_from_dispatch := l } z = p.contents z := by
  cases z with
  | recvFromDispatch => exact absurd rfl hz
  | _ => rfl

theorem contents_setToReclaim_of_ne (p : Process A) (l : List ℕ)
    (hz : z ≠ .toReclaim) : contents { p with to_reclaim := l } z = p.contents z := by
  cases z with
  | toReclaim => exact absurd rfl hz
  | _ => rfl

theorem contents_setFreeHead_of_ne (p : Process A) (l : List ℕ)
    (hz : z ≠ .freeHead) : contents { p with free_head := l } z = p.contents z := by
  cases z with
  | freeHead => exact absurd rfl hz
  | _ => rfl

/-- A process that goes elsewhere is in order if its rings are. -/
theorem RingsOk.goto (h : p.RingsOk) {owner : ℕ → ℕ} {i : ℕ} {pc : MainPc}
    (hpc : pc ≠ .exited) (hs : ∀ q ∈ pc.settled p.to_reclaim, owner q = i) :
    (p.goto pc).Ok owner i := ⟨⟨h.free, h.rx, h.tx⟩, hs, hpc⟩

/-- So it is where nothing of `to_reclaim` is settled. -/
theorem RingsOk.goto_unsettled (h : p.RingsOk) {owner : ℕ → ℕ} {i : ℕ} {pc : MainPc}
    (hpc : pc ≠ .exited) (hs : pc.settled p.to_reclaim = []) : (p.goto pc).Ok owner i :=
  h.goto hpc (fun q hq => by rw [hs] at hq; exact absurd hq List.not_mem_nil)

theorem RingsOk.setRx (h : p.RingsOk) (hr : r.Ok) (hpool : r.pool.Counted) :
    (p.setRx a r).RingsOk where
  free := h.free
  rx b := by
    by_cases hb : b = a
    · rw [hb, adapter_setRx]
      exact ⟨hr, hpool⟩
    · rw [adapter_setRx_of_ne hb]
      exact h.rx b
  tx b := by
    rw [tx_ring_setRx]
    exact h.tx b

theorem RingsOk.setTx (h : p.RingsOk) (hr : r.Ok) (hpool : r.pool.Counted) :
    (p.setTx a r).RingsOk where
  free := h.free
  rx b := by
    rw [rx_ring_setTx]
    exact h.rx b
  tx b := by
    by_cases hb : b = a
    · rw [hb, adapter_setTx]
      exact ⟨hr, hpool⟩
    · rw [adapter_setTx_of_ne hb]
      exact h.tx b

end Process

open Process Ledger

/-- **Filling a receive ring** moves packets from the free pool to the ring. -/
theorem adapterAllocRxBuffers_spec (h : p.RingsOk) (a : Fin A) :
    ∃ p' moved, adapterAllocRxBuffers p a = some p' ∧ p'.RingsOk
      ∧ Move p.contents p'.contents .free (.rxRing a) moved := by
  obtain ⟨r, pp, taken, hcall, hok, hcount, -, hpool, hlist, hheld⟩ :=
    ringAllocRxBuffers_spec (h.rx a).1 h.free
  have hrings := h.setRx (a := a) hok (hpool ▸ (h.rx a).2)
  refine ⟨{ p.setRx a r with free_packet_pool := pp }, taken, ?_, ⟨hcount, hrings.rx, hrings.tx⟩,
    by simp, ?_, ?_, fun z hfree hring => ?_⟩
  · rw [adapterAllocRxBuffers, hcall]
    rfl
  · exact hlist ▸ List.Perm.refl _
  · show ((p.setRx a r).adapter a).rx_ring.slots.Perm ((p.adapter a).rx_ring.slots ++ taken)
    rw [adapter_setRx]
    refine hok.slots_perm.trans ?_
    rw [hheld]
    exact ((h.rx a).1.slots_perm.append_right taken).symm
  · rw [contents_setFree_of_ne _ _ hfree]
    by_cases hz : z = .rxPool a
    · rw [hz, contents, contents, adapter_setRx]
      exact congrArg _ hpool
    · exact contents_setRx_of_ne hring hz

/-- **Receiving** moves packets from the ring to the end of its pool, and assigns nothing
but those packets. -/
theorem adapterRecv_spec (h : p.RingsOk) (packet : ℕ → Packet) (a : Fin A) :
    ∃ p' packet' moved, adapterRecv p packet a = some (p', packet') ∧ p'.RingsOk
      ∧ p' = p.setRx a (p'.adapter a).rx_ring
      ∧ Move p.contents p'.contents (.rxRing a) (.rxPool a) moved
      ∧ p'.contents (.rxPool a) = p.contents (.rxPool a) ++ moved
      ∧ (p.adapter a).rx_ring.held = moved ++ (p'.adapter a).rx_ring.held
      ∧ ∀ q, ∃ len idx, packet' q = { packet q with len := len, adapter_idx := idx } := by
  obtain ⟨r, packet', got, hcall, hok, hcount, -, hlist, hheld, hpacket⟩ :=
    ringRecv_spec (p.adapter a).id packet (h.rx a).1 (h.rx a).2
  have hpool : (p.setRx a r).contents (.rxPool a) = p.contents (.rxPool a) ++ got := by
    rw [contents, adapter_setRx]
    exact hlist
  refine ⟨p.setRx a r, packet', got, ?_, h.setRx hok hcount, ?_, ⟨by simp, ?_, ?_,
    fun z hring hz => contents_setRx_of_ne hring hz⟩, hpool, ?_, fun q => ?_⟩
  · rw [adapterRecv, hcall]
    rfl
  · rw [adapter_setRx]
  · show (p.adapter a).rx_ring.slots.Perm (got ++ ((p.setRx a r).adapter a).rx_ring.slots)
    rw [adapter_setRx]
    refine (h.rx a).1.slots_perm.trans ?_
    rw [hheld]
    exact (hok.slots_perm.append_left got).symm
  · rw [hpool]
  · rw [adapter_setRx]
    exact hheld
  · obtain hq | ⟨-, len, hq⟩ := hpacket q
    · exact ⟨(packet q).len, (packet q).adapter_idx, hq⟩
    · exact ⟨len, (p.adapter a).id, hq⟩

/-- **The received packets** go from the pool of the ring to the end of `recv_from_driver`. -/
theorem driverGetReceivedPackets_spec (h : p.RingsOk) (a : Fin A) :
    (driverGetReceivedPackets p a).RingsOk
      ∧ Move p.contents (driverGetReceivedPackets p a).contents (.rxPool a) .recvFromDriver
        (p.contents (.rxPool a))
      ∧ (driverGetReceivedPackets p a).contents (.rxPool a) = []
      ∧ (driverGetReceivedPackets p a).recv_from_driver
        = p.recv_from_driver ++ p.contents (.rxPool a) := by
  have heq : driverGetReceivedPackets p a = { p.setRx a ((p.adapter a).rx_ring.setPool ⟨0, []⟩)
      with recv_from_driver := p.recv_from_driver ++ p.contents (.rxPool a) } := by
    rw [driverGetReceivedPackets, (h.rx a).2.getAll]
    rfl
  have hrings := h.setRx (a := a) ((h.rx a).1.setPool ⟨0, []⟩) rfl
  have hnil : (driverGetReceivedPackets p a).contents (.rxPool a) = [] := by
    rw [heq, contents_setRecvFromDriver_of_ne _ _ (by simp), contents, adapter_setRx]
    rfl
  rw [heq] at hnil ⊢
  refine ⟨⟨hrings.free, hrings.rx, hrings.tx⟩, ⟨by simp, ?_, .refl _, fun z hpool hz => ?_⟩,
    hnil, rfl⟩
  · rw [hnil, List.append_nil]
  · rw [contents_setRecvFromDriver_of_ne _ _ hz]
    by_cases hring : z = .rxRing a
    · rw [hring, contents, contents, adapter_setRx]
      rfl
    · exact contents_setRx_of_ne hring hpool

/-- **Handing a packet to the driver** puts it at the end of the pool of a transmit ring. -/
theorem driverPutPacketToSendBuffer_spec (h : p.RingsOk) {pkt : Packet} {p' : Process A}
    (hcall : driverPutPacketToSendBuffer p pkt = some p') :
    ∃ b, p'.RingsOk ∧ p'.pc = p.pc
      ∧ p'.contents (.txPool b) = p.contents (.txPool b) ++ [pkt.phys]
      ∧ ∀ z, z ≠ .txPool b → p'.contents z = p.contents z := by
  unfold driverPutPacketToSendBuffer at hcall
  split at hcall
  · rename_i hlt
    obtain rfl := Option.some.inj hcall
    refine ⟨⟨pkt.adapter_idx.toNat, hlt⟩, h.setTx ((h.tx _).1.setPool _) ((h.tx _).2.put _), rfl,
      ?_, fun z hz => ?_⟩
    · rw [contents, adapter_setTx]
      rfl
    · by_cases hring : z = .txRing ⟨pkt.adapter_idx.toNat, hlt⟩
      · rw [hring, contents, contents, adapter_setTx]
        rfl
      · exact contents_setTx_of_ne hring hz
  · exact absurd hcall (by simp)

/-- **Processing a packet** hands it to the driver, or leaves every place as it is. -/
theorem processPacket_spec (h : p.RingsOk) {malloc : Option ℕ} {pkt out : Packet}
    {ret : Verdict} {p' : Process A} (hcall : processPacket malloc p pkt = some (ret, out, p')) :
    p'.RingsOk ∧ p'.pc = p.pc ∧ pkt.SameHeaders out
      ∧ if ret = .stolen then ∃ b, p'.contents (.txPool b) = p.contents (.txPool b) ++ [pkt.phys]
          ∧ ∀ z, z ≠ .txPool b → p'.contents z = p.contents z
        else p'.contents = p.contents := by
  obtain ⟨hout, hsent⟩ := mainProcessPackets_spec malloc { p.tables with sent := [] } pkt
  unfold processPacket at hcall
  generalize mainProcessPackets malloc { p.tables with sent := [] } pkt = res at hcall hout hsent
  obtain ⟨ret', out', t⟩ := res
  obtain ⟨q, hput, heq⟩ := Option.map_eq_some_iff.mp hcall
  obtain ⟨rfl, rfl, rfl⟩ : ret' = ret ∧ out' = out ∧ q = p' := by simpa using heq
  have hrings : Process.RingsOk { p with tables := t } := ⟨h.free, h.rx, h.tx⟩
  have hphys : out'.phys = pkt.phys := hout.fields.1
  dsimp only at hsent hput
  split at hsent
  · rw [hsent] at hput
    have hput' : driverPutPacketToSendBuffer { p with tables := t } out' = some q := by
      simpa using hput
    obtain ⟨b, hok, hpc, hpool, hother⟩ := driverPutPacketToSendBuffer_spec hrings hput'
    rename_i hret
    rw [if_pos hret]
    exact ⟨hok, hpc, hout, b, hphys ▸ hpool, hother⟩
  · rw [hsent] at hput
    obtain rfl := Option.some.inj hput
    rename_i hret
    rw [if_neg hret]
    exact ⟨hrings, rfl, hout, rfl⟩

/-- **Reclaiming** moves packets from the transmit ring to the end of `to_reclaim`. -/
theorem adapterReclaimTxBuffers_spec (h : p.RingsOk) (a : Fin A) :
    ∃ p' moved, adapterReclaimTxBuffers p a = some p' ∧ p'.RingsOk
      ∧ Move p.contents p'.contents (.txRing a) .toReclaim moved := by
  obtain ⟨r, got, hcall, hok, -, hpool, hheld⟩ :=
    ringReclaimTxBuffers_spec p.to_reclaim (h.tx a).1
  have hrings := h.setTx (a := a) hok (hpool ▸ (h.tx a).2)
  refine ⟨{ p.setTx a r with to_reclaim := p.to_reclaim ++ got }, got, ?_,
    ⟨hrings.free, hrings.rx, hrings.tx⟩, by simp, ?_, .refl _, fun z hring hz => ?_⟩
  · rw [adapterReclaimTxBuffers, hcall]
    rfl
  · show (p.adapter a).tx_ring.slots.Perm (got ++ ((p.setTx a r).adapter a).tx_ring.slots)
    rw [adapter_setTx]
    refine (h.tx a).1.slots_perm.trans ?_
    rw [hheld]
    exact (hok.slots_perm.append_left got).symm
  · rw [contents_setToReclaim_of_ne _ _ hz]
    by_cases hz' : z = .txPool a
    · rw [hz', contents, contents, adapter_setTx]
      exact congrArg _ hpool
    · exact contents_setTx_of_ne hring hz'

/-- **Sending** moves packets from the front of the pool of a transmit ring to the ring. -/
theorem adapterSend_spec (h : p.RingsOk) (a : Fin A) :
    ∃ p' moved, adapterSend p a = some p' ∧ p'.RingsOk
      ∧ Move p.contents p'.contents (.txPool a) (.txRing a) moved
      ∧ p.contents (.txPool a) = moved ++ p'.contents (.txPool a)
      ∧ (p'.adapter a).tx_ring.held = (p.adapter a).tx_ring.held ++ moved := by
  obtain ⟨r, taken, hcall, hok, hcount, -, hlist, hheld⟩ := ringSend_spec (h.tx a).1 (h.tx a).2
  have hpool : p.contents (.txPool a) = taken ++ (p.setTx a r).contents (.txPool a) := by
    rw [contents, contents, adapter_setTx]
    exact hlist
  refine ⟨p.setTx a r, taken, ?_, h.setTx hok hcount, ⟨by simp, ?_, ?_,
    fun z hz hring => contents_setTx_of_ne hring hz⟩, hpool, ?_⟩
  · rw [adapterSend, hcall]
    rfl
  · rw [hpool]
  · show ((p.setTx a r).adapter a).tx_ring.slots.Perm ((p.adapter a).tx_ring.slots ++ taken)
    rw [adapter_setTx]
    refine hok.slots_perm.trans ?_
    rw [hheld]
    exact ((h.tx a).1.slots_perm.append_right taken).symm
  · rw [adapter_setTx]
    exact hheld

end Moves

/-! ## What a step keeps -/

namespace World

open Ledger

variable {n A : ℕ} {items : Set ℕ} {owner : ℕ → ℕ} {w t : World n A} {i : Fin n}
  {p' : Process A} {x y : ProcPlace A} {moved : List ℕ}

/-- A move between places of a process. -/
theorem move_proc (hproc : t.proc = Function.update w.proc i p') (hlink : t.link = w.link)
    (h : Move (w.proc i).contents p'.contents x y moved) :
    Move w.contents t.contents (.proc i x) (.proc i y) moved := by
  have hself : t.proc i = p' := by rw [hproc, Function.update_self]
  refine ⟨fun he => h.ne (Place.proc.inj he).2, ?_, ?_, fun z hx hy => ?_⟩
  · rw [contents, contents, hself]
    exact h.taken
  · rw [contents, contents, hself]
    exact h.given
  · cases z with
    | proc j z =>
      rw [contents, contents]
      by_cases hj : j = i
      · subst hj
        rw [hself]
        exact h.other z (fun he => hx (congrArg _ he)) (fun he => hy (congrArg _ he))
      · rw [hproc, Function.update_of_ne hj]
    | pending r c => rw [contents, contents, hlink]
    | slots r c => rw [contents, contents, hlink]

/-- **A step that moves packets keeps the invariant** if the packets fit where they go, and
the state of no other packet on its way changes. -/
theorem Inv.next {x y : Place n A} (h : w.Inv items owner)
    (hm : Move w.contents t.contents x y moved)
    (hpkt : ∀ q, (t.packet q).phys = (w.packet q).phys ∧ (t.packet q).id = (w.packet q).id)
    (hstate : ∀ q, (t.packet q).lfq_state = (w.packet q).lfq_state ∨ q ∈ moved
      ∨ q ∈ (w.proc i).recv_from_driver)
    (hin : ∀ q ∈ moved, y.Fits (owner q) (t.packet q).lfq_state)
    (hproc : ∀ i, (t.proc i).Ok owner i)
    (hlink : ∀ r c, ∃ T W R, (t.link r c).Inv lfqDescNum T W R) : t.Inv items owner where
  exclusive := h.exclusive.move hm
  phys q hq := (hpkt q).1.trans (h.phys q hq)
  id q hq := (hpkt q).2.trans (h.id q hq)
  fits z q hz := by
    by_cases hmoved : q ∈ moved
    · rw [hm.eq_of_mem_moved h.exclusive hmoved hz]
      exact hin q hmoved
    · have hold : q ∈ w.contents z := by
        by_cases hy : z = y
        · rw [hy] at hz ⊢
          exact (hm.mem_given.mp hz).resolve_right hmoved
        · exact hm.mem_of_ne hy hz
      obtain hs | hq | hq := hstate q
      · rw [hs]
        exact h.fits z q hold
      · exact absurd hq hmoved
      · -- in `recv_from_driver` any state is fine
        obtain rfl := h.exclusive.unique (y := .proc i .recvFromDriver) hold hq
        exact h.fits _ q hold
  proc := hproc
  link := hlink

theorem Inv.ok_update (h : w.Inv items owner) (hok : p'.Ok owner i) (j : Fin n) :
    (Function.update w.proc i p' j).Ok owner j := by
  by_cases hj : j = i
  · subst hj
    rw [Function.update_self]
    exact hok
  · rw [Function.update_of_ne hj]
    exact h.proc j

/-- A step of a process that does not touch a queue. -/
theorem Inv.next_proc (h : w.Inv items owner) (hproc : t.proc = Function.update w.proc i p')
    (hlink : t.link = w.link) (hm : Move (w.proc i).contents p'.contents x y moved)
    (hok : p'.Ok owner i)
    (hpkt : ∀ q, (t.packet q).phys = (w.packet q).phys ∧ (t.packet q).id = (w.packet q).id)
    (hstate : ∀ q, (t.packet q).lfq_state = (w.packet q).lfq_state ∨ q ∈ moved
      ∨ q ∈ (w.proc i).recv_from_driver)
    (hin : ∀ q ∈ moved, y.Fits i (owner q) (t.packet q).lfq_state) : t.Inv items owner :=
  h.next (move_proc hproc hlink hm) hpkt hstate hin
    (fun j => by rw [hproc]; exact h.ok_update hok j) (fun r c => by rw [hlink]; exact h.link r c)

/-- A step of a process that assigns no packet either. -/
theorem Inv.setProc (h : w.Inv items owner)
    (hm : Move (w.proc i).contents p'.contents x y moved) (hok : p'.Ok owner i)
    (hin : ∀ q ∈ moved, y.Fits i (owner q) (w.packet q).lfq_state) :
    (w.setProc i p').Inv items owner :=
  h.next_proc rfl rfl hm hok (fun _ => ⟨rfl, rfl⟩) (fun _ => Or.inl rfl) hin

/-- A packet of a process fits where it is. -/
theorem Inv.fits_proc (h : w.Inv items owner) {q : ℕ} (hq : q ∈ (w.proc i).contents x) :
    x.Fits i (owner q) (w.packet q).lfq_state := h.fits (.proc i x) q hq

/-- Going elsewhere. -/
theorem Inv.goto (h : w.Inv items owner) {pc : MainPc} (hpc : pc ≠ .exited)
    (hs : ∀ q ∈ pc.settled (w.proc i).to_reclaim, owner q = i) :
    (w.goto i pc).Inv items owner := by
  have hne : (.free : ProcPlace A) ≠ .freeHead := by simp
  exact h.setProc (Move.of_eq rfl hne) ((h.proc i).rings.goto hpc hs)
    (fun _ hq => absurd hq List.not_mem_nil)

/-! ### Where nothing is assigned -/

/-- A stage on an adapter. -/
theorem Inv.stage (h : w.Inv items owner) {pc : MainPc} {q : Option (Process A)}
    (hq : q = some p') (hpc : pc ≠ .exited) (hs : pc.settled p'.to_reclaim = [])
    (hrings : p'.RingsOk) (hm : Move (w.proc i).contents p'.contents x y moved)
    (hin : ∀ q ∈ moved, y.Fits i (owner q) (w.packet q).lfq_state) :
    (w.stage i pc q).Inv items owner := by
  subst hq
  have hok : (p'.goto pc).Ok owner i := hrings.goto_unsettled hpc hs
  exact h.next_proc rfl rfl hm hok (fun _ => ⟨rfl, rfl⟩) (fun _ => Or.inl rfl) hin

theorem Inv.allocRx (h : w.Inv items owner) (a : Fin A) :
    (w.stage i (.allocRx (a + 1)) (adapterAllocRxBuffers (w.proc i) a)).Inv items owner := by
  obtain ⟨p', moved, hcall, hrings, hm⟩ := adapterAllocRxBuffers_spec (h.proc i).rings a
  exact h.stage hcall (by simp) rfl hrings hm
    (fun q hq => h.fits_proc (x := .free) (hm.mem_moved hq))

theorem Inv.received (h : w.Inv items owner) (a : Fin A) :
    (w.setProc i ((driverGetReceivedPackets (w.proc i) a).goto (.received (a + 1)))).Inv
      items owner := by
  obtain ⟨hrings, hm, -⟩ := driverGetReceivedPackets_spec (h.proc i).rings a
  exact h.stage rfl (by simp) rfl hrings hm (fun q hq => h.fits_proc (x := .rxPool a) hq)

theorem Inv.reclaimTx (h : w.Inv items owner) (a : Fin A) :
    (w.stage i (.reclaimTx (a + 1)) (adapterReclaimTxBuffers (w.proc i) a)).Inv items owner := by
  obtain ⟨p', moved, hcall, hrings, hm⟩ := adapterReclaimTxBuffers_spec (h.proc i).rings a
  exact h.stage hcall (by simp) rfl hrings hm (fun _ _ => trivial)

theorem Inv.send (h : w.Inv items owner) (a : Fin A) : (w.send i a).Inv items owner := by
  obtain ⟨p', moved, hcall, hrings, hm, -⟩ := adapterSend_spec (h.proc i).rings a
  simp only [World.send, hcall]
  exact h.next_proc rfl rfl hm
    (hrings.goto_unsettled (by simp) rfl) (fun _ => ⟨rfl, rfl⟩) (fun _ => Or.inl rfl)
    (fun _ _ => trivial)

theorem Inv.recv (h : w.Inv items owner) (a : Fin A) : (w.recv i a).Inv items owner := by
  obtain ⟨p', packet', moved, hcall, hrings, -, hm, -, -, hpacket⟩ :=
    adapterRecv_spec (h.proc i).rings w.packet a
  have hkeeps : ∀ q, (packet' q).phys = (w.packet q).phys ∧ (packet' q).id = (w.packet q).id
      ∧ (packet' q).lfq_state = (w.packet q).lfq_state := fun q => by
    obtain ⟨len, idx, hq⟩ := hpacket q
    rw [hq]
    exact ⟨rfl, rfl, rfl⟩
  simp only [World.recv, hcall]
  refine h.next_proc rfl rfl hm
    (hrings.goto_unsettled (by simp) rfl) (fun q => ⟨(hkeeps q).1, (hkeeps q).2.1⟩)
    (fun q => Or.inl (hkeeps q).2.2)
    (fun q hq => h.fits_proc (x := .rxRing a) (hm.mem_moved hq))

theorem Inv.timerExpire (h : w.Inv items owner) (now : ℕ) :
    (w.timerExpire i now).Inv items owner := by
  have hrings := (h.proc i).rings
  have hne : (.free : ProcPlace A) ≠ .freeHead := by simp
  exact h.setProc (Move.of_eq rfl hne) ⟨⟨hrings.free, hrings.rx, hrings.tx⟩,
    fun q hq => absurd hq List.not_mem_nil, by simp⟩ (fun _ hq => absurd hq List.not_mem_nil)

/-! ### The NIC -/

theorem Inv.nicRecv (h : w.Inv items owner) {a : Fin A} {k : ℕ}
    (hk : k ∈ ((w.proc i).adapter a).rx_ring.window) (len : UInt16) (frame : Memory) :
    (w.nicRecv i a k len frame).Inv items owner := by
  have hrings := (h.proc i).rings
  have hne : (.free : ProcPlace A) ≠ .freeHead := by simp
  have hok := hrings.setRx (a := a) (r := ((w.proc i).adapter a).rx_ring.complete k len)
    ((hrings.rx a).1.complete hk _) (hrings.rx a).2
  have hkeeps : ∀ q, ((w.nicRecv i a k len frame).packet q).phys = (w.packet q).phys
      ∧ ((w.nicRecv i a k len frame).packet q).id = (w.packet q).id
      ∧ ((w.nicRecv i a k len frame).packet q).lfq_state = (w.packet q).lfq_state := fun q => by
    unfold World.nicRecv
    dsimp only
    split
    · exact ⟨rfl, rfl, rfl⟩
    · rename_i pos _
      by_cases hq : q = pos
      · subst hq
        simp [setPacket, World.setProc, Packet.setData]
      · simp [setPacket, World.setProc, hq]
  have hproc : (w.nicRecv i a k len frame).proc = Function.update w.proc i
      ((w.proc i).setRx a (((w.proc i).adapter a).rx_ring.complete k len)) := by
    unfold World.nicRecv
    dsimp only
    split <;> rfl
  have hlink : (w.nicRecv i a k len frame).link = w.link := by
    unfold World.nicRecv
    dsimp only
    split <;> rfl
  exact h.next_proc hproc hlink (Move.of_eq (Process.contents_nicRecv _ a k len) hne)
    ⟨hok, (h.proc i).settled, (h.proc i).running⟩ (fun q => ⟨(hkeeps q).1, (hkeeps q).2.1⟩)
    (fun q => Or.inl (hkeeps q).2.2) (fun _ hq => absurd hq List.not_mem_nil)

theorem Inv.nicSent (h : w.Inv items owner) {a : Fin A} {k : ℕ}
    (hk : k ∈ ((w.proc i).adapter a).tx_ring.window) : (w.nicSent i a k).Inv items owner := by
  have hrings := (h.proc i).rings
  have hne : (.free : ProcPlace A) ≠ .freeHead := by simp
  exact h.setProc (Move.of_eq (Process.contents_nicSent _ a k) hne)
    ⟨hrings.setTx ((hrings.tx a).1.complete hk _) (hrings.tx a).2, (h.proc i).settled,
      (h.proc i).running⟩ (fun _ hq => absurd hq List.not_mem_nil)

/-! ### Where a packet is assigned -/

variable {pos k : ℕ} {pkt : Packet}

theorem setPacket_keeps (hp : pkt.phys = (w.packet pos).phys) (hid : pkt.id = (w.packet pos).id)
    (q : ℕ) : ((w.setPacket pos pkt).packet q).phys = (w.packet q).phys
      ∧ ((w.setPacket pos pkt).packet q).id = (w.packet q).id := by
  show (Function.update w.packet pos pkt q).phys = _ ∧ (Function.update w.packet pos pkt q).id = _
  by_cases hq : q = pos
  · subst hq
    rw [Function.update_self]
    exact ⟨hp, hid⟩
  · rw [Function.update_of_ne hq]
    exact ⟨rfl, rfl⟩

theorem setPacket_of_ne (pkt : Packet) {q : ℕ} (hq : q ≠ pos) :
    (w.setPacket pos pkt).packet q = w.packet q := Function.update_of_ne hq _ _

/-- A packet of the list a loop is at, and the others. -/
theorem perm_eraseIdx {l : List ℕ} (h : l[k]? = some pos) : l.Perm ([pos] ++ l.eraseIdx k) := by
  obtain ⟨hk, rfl⟩ := List.getElem?_eq_some_iff.mp h
  exact (List.getElem_cons_eraseIdx_perm hk).symm

/-- **A step that moves one packet of a process** and assigns no other. -/
theorem Inv.move_one (h : w.Inv items owner) (hxy : x ≠ y)
    (htaken : ((w.proc i).contents x).Perm ([pos] ++ p'.contents x))
    (hgiven : (p'.contents y).Perm ((w.proc i).contents y ++ [pos]))
    (hother : ∀ z, z ≠ x → z ≠ y → p'.contents z = (w.proc i).contents z)
    (hok : p'.Ok owner i) (hp : pkt.phys = (w.packet pos).phys)
    (hid : pkt.id = (w.packet pos).id) (hin : y.Fits i (owner pos) pkt.lfq_state) :
    ((w.setPacket pos pkt).setProc i p').Inv items owner := by
  refine h.next_proc rfl rfl ⟨hxy, htaken, hgiven, hother⟩ hok (setPacket_keeps hp hid)
    (fun q => ?_) (fun q hq => ?_)
  · by_cases hq : q = pos
    · exact Or.inr (Or.inl (List.mem_singleton.mpr hq))
    · exact Or.inl (congrArg Packet.lfq_state (setPacket_of_ne pkt hq))
  · obtain rfl := List.mem_singleton.mp hq
    show y.Fits i (owner q) (Function.update w.packet q pkt q).lfq_state
    rw [Function.update_self]
    exact hin

theorem Inv.mem_items (h : w.Inv items owner) {q : ℕ} (hq : q ∈ (w.proc i).contents x) :
    q ∈ items := (h.exclusive.covers q).mpr ⟨.proc i x, hq⟩

theorem Inv.filter (h : w.Inv items owner) (hpc : (w.proc i).pc = .filter k)
    (hpos : (w.proc i).recv_from_driver[k]? = some pos) (garbage : UInt16 × UInt16) :
    (w.filter i k pos garbage).Inv items owner := by
  have hrings := (h.proc i).rings
  have hmem : pos ∈ (w.proc i).recv_from_driver := List.mem_of_getElem? hpos
  obtain ⟨-, -, hp, hid, -⟩ := packetRecvInit_keeps garbage (w.packet pos)
  unfold World.filter
  generalize packetRecvInit garbage (w.packet pos) = res at hp hid ⊢
  obtain ⟨ret, pkt⟩ := res
  dsimp only at hp hid ⊢
  have hne : (.free : ProcPlace A) ≠ .freeHead := by simp
  cases ret with
  | true =>
    have hok : ((w.proc i).goto (.filter (k + 1))).Ok owner i :=
      hrings.goto_unsettled (by simp) rfl
    refine h.next_proc rfl rfl (Move.of_eq rfl hne) hok (setPacket_keeps hp hid)
      (fun q => ?_) (fun _ hq => absurd hq List.not_mem_nil)
    by_cases hq : q = pos
    · exact Or.inr (Or.inr (hq ▸ hmem))
    · exact Or.inl (congrArg Packet.lfq_state (setPacket_of_ne pkt hq))
  | false =>
    refine h.move_one (x := .recvFromDriver) (y := .freeHead) (by simp) (perm_eraseIdx hpos)
      (.refl _) (fun z hx hy => ?_) ⟨⟨hrings.free, hrings.rx, hrings.tx⟩, fun q hq => ?_, ?_⟩ hp hid
      (h.fits_proc (x := .recvFromDriver) hmem)
    · exact (Process.contents_setFreeHead_of_ne
        { w.proc i with recv_from_driver := (w.proc i).recv_from_driver.eraseIdx k } _ hy).trans
        (Process.contents_setRecvFromDriver_of_ne (w.proc i) _ hx)
    · rw [show (w.proc i).pc = _ from hpc] at hq
      exact absurd hq List.not_mem_nil
    · rw [show (w.proc i).pc = _ from hpc]
      simp

/-- What is in `recv_from_dispatch` is dispatched to the process or returned to it. -/
theorem Inv.dispatched (h : w.Inv items owner) (hpc : (w.proc i).pc = .dispatched k)
    (hpos : (w.proc i).recv_from_dispatch[k]? = some pos)
    (hrun : w.dispatched i k pos = some t) : t.Inv items owner := by
  have hrings := (h.proc i).rings
  have hmem : pos ∈ (w.proc i).recv_from_dispatch := List.mem_of_getElem? hpos
  have hstate : (w.packet pos).lfq_state = queuedState i (owner pos) :=
    h.fits_proc (x := .recvFromDispatch) hmem
  unfold World.dispatched at hrun
  unfold queuedState at hstate
  split at hstate
  · rename_i howner
    simp only [hstate] at hrun
    obtain rfl := Option.some.inj hrun
    refine h.move_one (x := .recvFromDispatch) (y := .freeHead) (by simp) (perm_eraseIdx hpos)
      (.refl _) (fun z hx hy => ?_) ⟨⟨hrings.free, hrings.rx, hrings.tx⟩, fun q hq => ?_, ?_⟩ rfl rfl
      howner
    · exact (Process.contents_setFreeHead_of_ne
        { w.proc i with recv_from_dispatch := (w.proc i).recv_from_dispatch.eraseIdx k } _ hy).trans
        (Process.contents_setRecvFromDispatch_of_ne (w.proc i) _ hx)
    · rw [show (w.proc i).pc = _ from hpc] at hq
      exact absurd hq List.not_mem_nil
    · rw [show (w.proc i).pc = _ from hpc]
      simp
  · simp only [hstate] at hrun
    obtain rfl := Option.some.inj hrun
    exact h.goto (by simp) (fun q hq => absurd hq List.not_mem_nil)

/-- **The body of `process_packets`**, on a list whose packets the process may put in
another. -/
theorem Inv.process (h : w.Inv items owner) {q : Process A} {malloc : Option ℕ}
    {ret : Verdict} (hxy : x ≠ y) (hxtx : ∀ b, x ≠ .txPool b)
    (htaken : ((w.proc i).contents x).Perm ([pos] ++ q.contents x))
    (hother : ∀ z, z ≠ x → q.contents z = (w.proc i).contents z) (hq : q.RingsOk)
    (hcall : processPacket malloc q (w.packet pos) = some (ret, pkt, p'))
    (hmem : pos ∈ (w.proc i).contents x) {p'' : Process A}
    (hp'' : ret ≠ .stolen → (p''.contents y).Perm (p'.contents y ++ [pos])
      ∧ ∀ z, z ≠ y → p''.contents z = p'.contents z)
    (hok : p'.RingsOk → p'.pc = q.pc → p'.Ok owner i)
    (hok'' : p'.RingsOk → p'.pc = q.pc → p''.Ok owner i)
    (hin : y.Fits i (owner pos) (w.packet pos).lfq_state) :
    ((w.setPacket pos pkt).setProc i (if ret ≠ .stolen then p'' else p')).Inv items owner := by
  obtain ⟨hrings, hpc, hout, hcontents⟩ := processPacket_spec hq hcall
  obtain ⟨hp, hid, hstate⟩ := hout.fields
  by_cases hret : ret = .stolen
  · rw [if_pos hret] at hcontents
    obtain ⟨b, hb, hrest⟩ := hcontents
    rw [h.phys pos (h.mem_items hmem), hother _ (hxtx b).symm] at hb
    rw [if_neg (not_not_intro hret)]
    refine h.move_one (hxtx b) ?_ (hb ▸ .refl _) (fun z hx hz => ?_) (hok hrings hpc) hp hid trivial
    · rw [hrest x (hxtx b)]
      exact htaken
    · exact (hrest z hz).trans (hother z hx)
  · rw [if_neg hret] at hcontents
    rw [if_pos hret]
    obtain ⟨hgiven, hrest⟩ := hp'' hret
    refine h.move_one hxy ?_ ?_ (fun z hx hz => ?_) (hok'' hrings hpc) hp hid (hstate ▸ hin)
    · rw [hrest x hxy, hcontents]
      exact htaken
    · rwa [hcontents, hother y hxy.symm] at hgiven
    · rw [hrest z hz, hcontents]
      exact hother z hx

theorem Inv.processDriver (h : w.Inv items owner) {rest : List ℕ} {malloc : Option ℕ}
    (hpc : (w.proc i).pc = .processDriver) (hl : (w.proc i).recv_from_driver = pos :: rest)
    (hrun : w.processDriver i pos rest malloc = some t) : t.Inv items owner := by
  have hrings := (h.proc i).rings
  have hmem : pos ∈ (w.proc i).recv_from_driver := hl ▸ List.mem_cons_self
  have hok : ∀ p : Process A, p.RingsOk → p.pc = (w.proc i).pc → p.Ok owner i := fun p hp he => by
    rw [hpc] at he
    exact ⟨hp, fun q hq => by rw [he] at hq; exact absurd hq List.not_mem_nil, by rw [he]; simp⟩
  obtain ⟨⟨ret, pkt, p'⟩, hcall, rfl⟩ := Option.map_eq_some_iff.mp hrun
  refine h.process (x := .recvFromDriver) (y := .freeHead) (by simp) (by simp) ?_
    (fun z hz => Process.contents_setRecvFromDriver_of_ne (w.proc i) rest hz)
    ⟨hrings.free, hrings.rx, hrings.tx⟩ hcall hmem (fun _ => ⟨?_, fun z hz => ?_⟩) (hok p')
    (fun hp he => hok _ ⟨hp.free, hp.rx, hp.tx⟩ he) (h.fits_proc (x := .recvFromDriver) hmem)
  · exact List.Perm.of_eq hl
  · exact (List.perm_append_singleton pos _).symm
  · exact Process.contents_setFreeHead_of_ne _ _ hz

theorem Inv.processDispatch (h : w.Inv items owner) {rest : List ℕ} {malloc : Option ℕ}
    (hpc : (w.proc i).pc = .processDispatch) (hl : (w.proc i).recv_from_dispatch = pos :: rest)
    (hrun : w.processDispatch i pos rest malloc = some t) : t.Inv items owner := by
  have hrings := (h.proc i).rings
  have hmem : pos ∈ (w.proc i).recv_from_dispatch := hl ▸ List.mem_cons_self
  have hok : ∀ p : Process A, p.RingsOk → p.pc = (w.proc i).pc → p.Ok owner i := fun p hp he => by
    rw [hpc] at he
    exact ⟨hp, fun q hq => by rw [he] at hq; exact absurd hq List.not_mem_nil, by rw [he]; simp⟩
  obtain ⟨⟨ret, pkt, p'⟩, hcall, rfl⟩ := Option.map_eq_some_iff.mp hrun
  refine h.process (x := .recvFromDispatch) (y := .toReclaim) (by simp) (by simp) ?_
    (fun z hz => Process.contents_setRecvFromDispatch_of_ne (w.proc i) rest hz)
    ⟨hrings.free, hrings.rx, hrings.tx⟩ hcall hmem (fun _ => ⟨?_, fun z hz => ?_⟩) (hok p')
    (fun hp he => hok _ ⟨hp.free, hp.rx, hp.tx⟩ he) trivial
  · exact List.Perm.of_eq hl
  · exact (List.perm_append_singleton pos _).symm
  · exact Process.contents_setToReclaim_of_ne _ _ hz

theorem Inv.zoneReclaimFree (h : w.Inv items owner) {rest : List ℕ}
    (hl : (w.proc i).free_head = pos :: rest) :
    (w.zoneReclaimFree i pos rest).Inv items owner := by
  have hrings := (h.proc i).rings
  have hmem : pos ∈ (w.proc i).free_head := hl ▸ List.mem_cons_self
  have hm : Move (w.proc i).contents (Process.contents { w.proc i with
      free_head := rest
      free_packet_pool := packetPoolPut (w.proc i).free_packet_pool pos }) .freeHead .free [pos] :=
    ⟨by simp, List.Perm.of_eq hl, .refl _, fun z hx hy =>
      (Process.contents_setFree_of_ne { w.proc i with free_head := rest } _ hy).trans
        (Process.contents_setFreeHead_of_ne (w.proc i) _ hx)⟩
  refine h.setProc hm ⟨⟨hrings.free.put pos, hrings.rx, hrings.tx⟩, (h.proc i).settled,
    (h.proc i).running⟩ (fun q hq => ?_)
  obtain rfl := List.mem_singleton.mp hq
  exact h.fits_proc (x := .freeHead) hmem

theorem Inv.zoneReclaim (h : w.Inv items owner) {rest : List ℕ}
    (hpc : (w.proc i).pc = .zoneReclaim) (hl : (w.proc i).to_reclaim = pos :: rest) :
    (w.zoneReclaim i pos rest).Inv items owner := by
  have hrings := (h.proc i).rings
  have hown : ∀ q ∈ (w.proc i).to_reclaim, owner q = i := fun q hq =>
    (h.proc i).settled q (by rw [hpc]; exact hq)
  have hm : Move (w.proc i).contents (Process.contents { w.proc i with
      to_reclaim := rest
      free_packet_pool := packetPoolPut (w.proc i).free_packet_pool pos }) .toReclaim .free [pos] :=
    ⟨by simp, List.Perm.of_eq hl, .refl _, fun z hx hy =>
      (Process.contents_setFree_of_ne { w.proc i with to_reclaim := rest } _ hy).trans
        (Process.contents_setToReclaim_of_ne (w.proc i) _ hx)⟩
  refine h.setProc hm ⟨⟨hrings.free.put pos, hrings.rx, hrings.tx⟩, fun q hq => ?_,
    (h.proc i).running⟩ (fun q hq => ?_)
  · rw [show (w.proc i).pc = _ from hpc] at hq
    exact hown q (hl ▸ List.mem_cons_of_mem pos hq)
  · obtain rfl := List.mem_singleton.mp hq
    exact hown q (hl ▸ List.mem_cons_self)

/-! ### Queues -/

theorem Inv.link_setLink (h : w.Inv items owner) {r c : Fin n} {s : LfqLink ℕ}
    (hs : ∃ T W R, s.Inv lfqDescNum T W R) (r' c' : Fin n) :
    ∃ T W R, ((w.setLink r c s).link r' c').Inv lfqDescNum T W R := by
  by_cases hrc : r' = r ∧ c' = c
  · obtain ⟨rfl, rfl⟩ := hrc
    rw [World.link_setLink]
    exact hs
  · rw [link_setLink_of_ne _ _ hrc]
    exact h.link r' c'

theorem contents_proc_of_ne {j : Fin n} (hj : j ≠ i) (z : ProcPlace A) :
    (w.setProc i p').contents (.proc j z) = w.contents (.proc j z) := by
  rw [contents, contents, proc_setProc_of_ne _ _ hj]

theorem contents_proc_self {q : Process A} (z : ProcPlace A) :
    (w.setProc i q).contents (.proc i z) = q.contents z := by
  rw [contents, proc_setProc]

/-- **Sending** moves a packet from a list of the process to the queue of its receiver. -/
theorem move_sendTo {r : Fin n} (pkt : Packet) (hpos : ((w.proc i).contents x)[k]? = some pos)
    (hx : p'.contents x = ((w.proc i).contents x).eraseIdx k)
    (hother : ∀ z, z ≠ x → p'.contents z = (w.proc i).contents z) :
    Move w.contents (((w.setProc i p').setPacket pos pkt).lfqSendTo i pos r).contents
      (.proc i x) (.pending r i) [pos] := by
  refine ⟨by simp, ?_, ?_, fun z hz hz' => ?_⟩
  · show ((w.proc i).contents x).Perm ([pos] ++ (w.setProc i p').contents (.proc i x))
    rw [contents_proc_self, hx]
    exact perm_eraseIdx hpos
  · rw [contents, lfqSendTo, World.link_setLink]
    exact .refl _
  · cases z with
    | proc j z =>
      show (w.setProc i p').contents (.proc j z) = w.contents (.proc j z)
      by_cases hj : j = i
      · subst hj
        rw [contents_proc_self]
        exact hother z (fun he => hz (congrArg _ he))
      · exact contents_proc_of_ne hj z
    | pending r' c' =>
      rw [contents, lfqSendTo, link_setLink_of_ne _ _ (fun ⟨hr, hc⟩ => hz' (by rw [hr, hc]))]
      rfl
    | slots r' c' =>
      rw [contents, lfqSendTo]
      by_cases hrc : r' = r ∧ c' = i
      · obtain ⟨rfl, rfl⟩ := hrc
        rw [World.link_setLink]
        rfl
      · rw [link_setLink_of_ne _ _ hrc]
        rfl

theorem Inv.sendTo (h : w.Inv items owner) {r : Fin n} {s : LfqState} (hr : r ≠ i)
    (hpos : ((w.proc i).contents x)[k]? = some pos)
    (hx : p'.contents x = ((w.proc i).contents x).eraseIdx k)
    (hother : ∀ z, z ≠ x → p'.contents z = (w.proc i).contents z) (hok : p'.Ok owner i)
    (howner : owner pos = r ∨ owner pos = i) (hs : s = queuedState r (owner pos)) :
    (((w.setProc i p').setPacket pos (packetSetLfqState (w.packet pos) s)).lfqSendTo i pos r).Inv
      items owner := by
  have hm := move_sendTo (r := r) (packetSetLfqState (w.packet pos) s) hpos hx hother
  refine h.next (i := i) hm (setPacket_keeps rfl rfl) (fun q => ?_) (fun q hq => ?_)
    (h.ok_update hok) (h.link_setLink ?_)
  · by_cases hq : q = pos
    · exact Or.inr (Or.inl (List.mem_singleton.mpr hq))
    · exact Or.inl (congrArg Packet.lfq_state (setPacket_of_ne (w := w) _ hq))
  · obtain rfl := List.mem_singleton.mp hq
    refine ⟨hr, howner, ?_⟩
    show (Function.update w.packet q (packetSetLfqState (w.packet q) s) q).lfq_state = _
    rw [Function.update_self]
    exact hs
  · obtain ⟨T, W, R, hinv⟩ := h.link r i
    exact ⟨T, W, R, hinv.send pos⟩

theorem Inv.dispatch (h : w.Inv items owner) (hpc : (w.proc i).pc = .dispatch k)
    (hpos : (w.proc i).recv_from_driver[k]? = some pos) (id : Fin n) :
    (w.dispatch i k pos id).Inv items owner := by
  have hrings := (h.proc i).rings
  have howner : owner pos = i := h.fits_proc (x := .recvFromDriver) (List.mem_of_getElem? hpos)
  unfold World.dispatch
  dsimp only
  split
  · rename_i hid
    refine h.sendTo (x := .recvFromDriver) hid.2 hpos rfl (fun z hz =>
      Process.contents_setRecvFromDriver_of_ne (w.proc i) _ hz)
      ⟨⟨hrings.free, hrings.rx, hrings.tx⟩, fun q hq => ?_, ?_⟩ (Or.inr howner) ?_
    · rw [show (w.proc i).pc = _ from hpc] at hq
      exact absurd hq List.not_mem_nil
    · rw [show (w.proc i).pc = _ from hpc]
      simp
    · rw [queuedState, howner, if_neg (fun he => hid.2 (Fin.ext he).symm)]
  · exact h.goto (by simp) (fun q hq => absurd hq List.not_mem_nil)

theorem Inv.dispatchReclaim (h : w.Inv items owner) (hpc : (w.proc i).pc = .dispatchReclaim k)
    (hpos : (w.proc i).to_reclaim[k]? = some pos) (hrun : w.dispatchReclaim i k pos = some t) :
    t.Inv items owner := by
  have hrings := (h.proc i).rings
  have hmem : pos ∈ (w.proc i).to_reclaim := List.mem_of_getElem? hpos
  have hid := h.id pos (h.mem_items (x := .toReclaim) hmem)
  have hsettled : ∀ q ∈ (w.proc i).to_reclaim.take k, owner q = i := fun q hq =>
    (h.proc i).settled q (by rw [hpc]; exact hq)
  obtain ⟨hk, hget⟩ := List.getElem?_eq_some_iff.mp hpos
  unfold World.dispatchReclaim at hrun
  dsimp only at hrun
  split at hrun
  · rename_i hne
    split at hrun
    · rename_i hlt
      obtain rfl := Option.some.inj hrun
      refine h.sendTo (x := .toReclaim) (fun he => hne (by rw [← he])) hpos rfl (fun z hz =>
        Process.contents_setToReclaim_of_ne (w.proc i) _ hz)
        ⟨⟨hrings.free, hrings.rx, hrings.tx⟩, fun q hq => ?_, ?_⟩ (Or.inl hid.symm) ?_
      · rw [show (w.proc i).pc = _ from hpc] at hq
        have hq' : q ∈ ((w.proc i).to_reclaim.eraseIdx k).take k := hq
        rw [List.take_eraseIdx_eq_take_of_le _ _ _ le_rfl] at hq'
        exact hsettled q hq'
      · rw [show (w.proc i).pc = _ from hpc]
        simp
      · rw [queuedState, if_pos hid.symm]
    · exact absurd hrun (by simp)
  · rename_i hid'
    obtain rfl := Option.some.inj hrun
    refine h.goto (by simp) (fun q hq => ?_)
    have hq' : q ∈ (w.proc i).to_reclaim.take (k + 1) := hq
    rw [List.take_succ_eq_append_getElem hk, List.mem_append, List.mem_singleton] at hq'
    obtain hq' | hq' := hq'
    · exact hsettled q hq'
    · rw [hq', hget, ← hid]
      exact not_not.mp hid'

/-- **A step of the producer** moves packets from the list of a queue to its slots. -/
theorem Inv.move_put (h : w.Inv items owner) (r : Fin n) (site : FlushSite) :
    ∃ moved, Move w.contents (w.put i r site).contents (.pending r i) (.slots r i) moved
      ∧ w.contents (.pending r i) = moved ++ (w.put i r site).contents (.pending r i)
      ∧ (w.put i r site).contents (.slots r i) = w.contents (.slots r i) ++ moved := by
  obtain ⟨T, W, R, hinv⟩ := h.link r i
  obtain ⟨moved, hlist, hslots⟩ := hinv.slots_putStep
  have hpending : (w.put i r site).contents (.pending r i)
      = (w.link r i).putStep.queue.list := by
    show ((w.setLink r i (w.link r i).putStep).link r i).queue.list = _
    rw [World.link_setLink]
  have hslots' : (w.put i r site).contents (.slots r i) = (w.link r i).putStep.slots := by
    show ((w.setLink r i (w.link r i).putStep).link r i).slots = _
    rw [World.link_setLink]
  rw [hpending, hslots']
  refine ⟨moved, ⟨by simp, ?_, ?_, fun z hz hz' => ?_⟩, hlist, hslots⟩
  · exact List.Perm.of_eq (hlist.trans (by rw [hpending]))
  · exact List.Perm.of_eq (hslots'.trans hslots)
  · cases z with
    | proc j z =>
      by_cases hj : j = i
      · subst hj
        exact contents_proc_self z
      · exact contents_proc_of_ne hj z
    | pending r' c' =>
      show ((w.setLink r i (w.link r i).putStep).link r' c').queue.list = _
      rw [link_setLink_of_ne _ _ (fun ⟨hr, hc⟩ => hz (by rw [hr, hc]))]
      rfl
    | slots r' c' =>
      show ((w.setLink r i (w.link r i).putStep).link r' c').slots = _
      rw [link_setLink_of_ne _ _ (fun ⟨hr, hc⟩ => hz' (by rw [hr, hc]))]
      rfl

theorem Inv.put (h : w.Inv items owner) {r : Fin n} {site : FlushSite}
    (hpc : (w.proc i).pc = .flush site r) : (w.put i r site).Inv items owner := by
  obtain ⟨T, W, R, hinv⟩ := h.link r i
  obtain ⟨T', W', hinv'⟩ := hinv.putStep
  obtain ⟨moved, hm, -⟩ := h.move_put (i := i) r site
  have hsettled : ∀ j, ∀ q ∈ (MainPc.flush site j).settled (w.proc i).to_reclaim,
      owner q = i := fun j q hq => (h.proc i).settled q (by
    rw [hpc]
    cases site <;> exact hq)
  refine h.next (i := i) hm (fun _ => ⟨rfl, rfl⟩) (fun _ => Or.inl rfl) (fun q hq => ?_)
    (h.ok_update ?_) (h.link_setLink ⟨T', W', R, hinv'⟩)
  · exact h.fits (.pending r i) q (hm.mem_moved hq)
  · have hrings := (h.proc i).rings
    show ((w.proc i).goto _).Ok owner i
    have hfailed := hinv'.not_failed.1
    cases hput : (w.link r i).putStep.put with
    | idle => exact hrings.goto (by simp) (hsettled _)
    | failed => exact absurd hput hfailed
    | _ => exact hrings.goto (by simp) (hsettled _)

/-- **A step of the consumer** moves packets from the slots of a queue to
`recv_from_dispatch`. -/
theorem Inv.move_get (h : w.Inv items owner) (c : Fin n) :
    ∃ moved, Move w.contents (w.get i c).contents (.slots i c) (.proc i .recvFromDispatch) moved
      ∧ w.contents (.slots i c) = moved ++ (w.get i c).contents (.slots i c)
      ∧ (w.get i c).contents (.proc i .recvFromDispatch)
        = w.contents (.proc i .recvFromDispatch) ++ moved := by
  obtain ⟨T, W, R, hinv⟩ := h.link i c
  obtain ⟨new, hlhead, hslots⟩ := hinv.slots_getStep
  have hslots' : (w.get i c).contents (.slots i c) = (w.link i c).getStep.slots := by
    show ((w.setLink i c (w.link i c).getStep).link i c).slots = _
    rw [World.link_setLink]
  have hrecv : (w.get i c).contents (.proc i .recvFromDispatch)
      = w.contents (.proc i .recvFromDispatch) ++ new := by
    unfold World.get
    rw [contents_proc_self, hlhead, List.drop_left]
    rfl
  refine ⟨new, ⟨by simp, ?_, List.Perm.of_eq hrecv, fun z hz hz' => ?_⟩, ?_, hrecv⟩
  · exact List.Perm.of_eq (hslots.trans (by rw [hslots']))
  · cases z with
    | proc j z =>
      unfold World.get
      by_cases hj : j = i
      · subst hj
        rw [contents_proc_self]
        exact Process.contents_setRecvFromDispatch_of_ne (w.proc j) _
          (fun he => hz' (congrArg _ he))
      · exact contents_proc_of_ne hj z
    | pending r' c' =>
      show ((w.setLink i c (w.link i c).getStep).link r' c').queue.list = _
      by_cases hrc : r' = i ∧ c' = c
      · obtain ⟨rfl, rfl⟩ := hrc
        rw [World.link_setLink]
        exact (w.link r' c').getStep_lhead.1
      · rw [link_setLink_of_ne _ _ hrc]
        rfl
    | slots r' c' =>
      show ((w.setLink i c (w.link i c).getStep).link r' c').slots = _
      rw [link_setLink_of_ne _ _ (fun ⟨hr, hc⟩ => hz (by rw [hr, hc]))]
      rfl
  · rw [hslots']
    exact hslots

theorem Inv.get (h : w.Inv items owner) (c : Fin n) :
    (w.get i c).Inv items owner := by
  obtain ⟨T, W, R, hinv⟩ := h.link i c
  obtain ⟨R', hinv'⟩ := hinv.getStep
  obtain ⟨moved, hm, -⟩ := h.move_get (i := i) c
  refine h.next (i := i) hm (fun _ => ⟨rfl, rfl⟩) (fun _ => Or.inl rfl) (fun q hq => ?_)
    (h.ok_update ?_) (h.link_setLink ⟨T, W, R', hinv'⟩)
  · exact (h.fits (.slots i c) q (hm.mem_moved hq)).2.2
  · have hrings := (h.proc i).rings
    have hfailed := hinv'.not_failed.2
    have hok : ∀ pc l, pc ≠ .exited → pc.settled (w.proc i).to_reclaim = [] → Process.Ok owner i
        (Process.goto { w.proc i with recv_from_dispatch := l } pc) := fun pc l hpc hs =>
      Process.RingsOk.goto_unsettled (p := { w.proc i with recv_from_dispatch := l })
        ⟨hrings.free, hrings.rx, hrings.tx⟩ hpc hs
    show Process.Ok owner i (Process.goto _ _)
    cases hget : (w.link i c).getStep.get with
    | idle => exact hok _ _ (by simp) rfl
    | failed => exact absurd hget hfailed
    | _ => exact hok _ _ (by simp) rfl

/-! ### Every step -/

/-- Going to a stage where nothing of `to_reclaim` is settled. -/
theorem Inv.goto_unsettled (h : w.Inv items owner) {pc : MainPc} (hpc : pc ≠ .exited)
    (hs : ∀ l, pc.settled l = []) : (w.goto i pc).Inv items owner :=
  h.goto hpc (fun q hq => by rw [hs] at hq; exact absurd hq List.not_mem_nil)

/-- **A step of a process keeps the invariant**, whatever the environment says. -/
theorem Inv.run (h : w.Inv items owner) {e : Env n} (hrun : w.run i e = some t) :
    t.Inv items owner := by
  have hsettled := (h.proc i).settled
  unfold World.run at hrun
  cases hpc : (w.proc i).pc with
  | allocRx a =>
    simp only [hpc] at hrun
    split at hrun <;> obtain rfl := Option.some.inj hrun
    · exact h.allocRx _
    · exact h.goto_unsettled (by simp) (fun _ => rfl)
  | recv a =>
    simp only [hpc] at hrun
    split at hrun <;> obtain rfl := Option.some.inj hrun
    · exact h.recv _
    · exact h.goto_unsettled (by simp) (fun _ => rfl)
  | received a =>
    simp only [hpc] at hrun
    split at hrun <;> obtain rfl := Option.some.inj hrun
    · exact h.received _
    · exact h.goto_unsettled (by simp) (fun _ => rfl)
  | filter k =>
    simp only [hpc] at hrun
    split at hrun <;> obtain rfl := Option.some.inj hrun
    · rename_i pos hpos
      exact h.filter hpc hpos e.garbage
    · split
      · exact h.goto_unsettled (by simp) (fun _ => rfl)
      · exact h.goto_unsettled (by simp) (fun _ => rfl)
  | dispatch k =>
    simp only [hpc] at hrun
    split at hrun <;> obtain rfl := Option.some.inj hrun
    · rename_i pos hpos
      exact h.dispatch hpc hpos e.id
    · exact h.goto_unsettled (by simp) (fun _ => rfl)
  | flush site j =>
    rw [hpc] at hsettled
    simp only [hpc] at hrun
    split at hrun
    · split at hrun <;> obtain rfl := Option.some.inj hrun
      · exact h.goto (by simp) (fun q hq => hsettled q (by cases site <;> exact hq))
      · exact h.put hpc
    · obtain rfl := Option.some.inj hrun
      cases site with
      | dispatch => exact h.goto_unsettled (by simp [FlushSite.next]) (fun _ => rfl)
      | reclaim => exact h.goto (by simp [FlushSite.next]) hsettled
      | last => exact h.goto_unsettled (by simp [FlushSite.next]) (fun _ => rfl)
  | lfqRecv j =>
    simp only [hpc] at hrun
    split at hrun
    · split at hrun <;> obtain rfl := Option.some.inj hrun
      · exact h.goto_unsettled (by simp) (fun _ => rfl)
      · exact h.get _
    · obtain rfl := Option.some.inj hrun
      exact h.goto_unsettled (by simp) (fun _ => rfl)
  | dispatched k =>
    simp only [hpc] at hrun
    split at hrun
    · rename_i pos hpos
      exact h.dispatched hpc hpos hrun
    · obtain rfl := Option.some.inj hrun
      exact h.goto_unsettled (by simp) (fun _ => rfl)
  | processDriver =>
    simp only [hpc] at hrun
    split at hrun
    · rename_i pos rest hl
      exact h.processDriver hpc hl hrun
    · obtain rfl := Option.some.inj hrun
      exact h.goto_unsettled (by simp) (fun _ => rfl)
  | processDispatch =>
    simp only [hpc] at hrun
    split at hrun
    · rename_i pos rest hl
      exact h.processDispatch hpc hl hrun
    · obtain rfl := Option.some.inj hrun
      exact h.goto_unsettled (by simp) (fun _ => rfl)
  | reclaimTx a =>
    simp only [hpc] at hrun
    split at hrun <;> obtain rfl := Option.some.inj hrun
    · exact h.reclaimTx _
    · split
      · rename_i hnil
        exact h.goto (by simp) (fun q hq => by
          rw [hnil] at hq
          exact absurd hq List.not_mem_nil)
      · exact h.goto_unsettled (by simp) (fun _ => rfl)
  | dispatchReclaim k =>
    rw [hpc] at hsettled
    simp only [hpc] at hrun
    split at hrun
    · rename_i pos hpos
      exact h.dispatchReclaim hpc hpos hrun
    · rename_i hnone
      obtain rfl := Option.some.inj hrun
      refine h.goto (by simp) (fun q hq => hsettled q ?_)
      show q ∈ (w.proc i).to_reclaim.take k
      rw [List.take_of_length_le (List.getElem?_eq_none_iff.mp hnone)]
      exact hq
  | zoneReclaimFree =>
    rw [hpc] at hsettled
    simp only [hpc] at hrun
    split at hrun <;> obtain rfl := Option.some.inj hrun
    · rename_i pos rest hl
      exact h.zoneReclaimFree hl
    · exact h.goto (by simp) hsettled
  | zoneReclaim =>
    simp only [hpc] at hrun
    split at hrun <;> obtain rfl := Option.some.inj hrun
    · rename_i pos rest hl
      exact h.zoneReclaim hpc hl
    · exact h.goto_unsettled (by simp) (fun _ => rfl)
  | send a =>
    simp only [hpc] at hrun
    split at hrun <;> obtain rfl := Option.some.inj hrun
    · exact h.send _
    · exact h.goto_unsettled (by simp) (fun _ => rfl)
  | timerExpire =>
    simp only [hpc] at hrun
    obtain rfl := Option.some.inj hrun
    exact h.timerExpire e.now
  | exited => exact absurd hpc (h.proc i).running

end World

/-! ## Initialised processes -/

/-- No slot of a new ring has a packet. -/
theorem slots_ringCreate (desc_num : ℕ) (length : ℕ → UInt16) :
    (ringCreate desc_num length).slots = [] := by
  simp [DescRing.slots, ringCreate]

namespace Process.Started

open Ledger

variable {n A start phys size : ℕ} {i : ℕ} {packet : ℕ → Packet} {p : Process A}

/-- Nothing is anywhere but in the free pool and where it waits to be sent. -/
theorem contents_eq_nil (h : p.Started start phys size n i packet) {z : ProcPlace A}
    (hfree : z ≠ .free) (htx : ∀ a, z ≠ .txPool a) : p.contents z = [] := by
  cases z with
  | free => exact absurd rfl hfree
  | rxRing a =>
    obtain ⟨length, hr⟩ := h.rx_ring a
    rw [contents, hr]
    exact slots_ringCreate _ _
  | rxPool a =>
    obtain ⟨length, hr⟩ := h.rx_ring a
    rw [contents, hr]
    rfl
  | txPool a => exact absurd rfl (htx a)
  | txRing a =>
    obtain ⟨length, pool, hr, -⟩ := h.tx_ring a
    rw [contents, hr]
    exact slots_ringCreate descNum length
  | recvFromDriver => exact h.recv_from_driver
  | recvFromDispatch => exact h.recv_from_dispatch
  | toReclaim => exact h.to_reclaim
  | freeHead => exact h.free_head

/-- The packets of the zone are those that are free and those that wait. -/
theorem zone_perm (h : p.Started start phys size n i packet) :
    (p.contents .free ++ (List.finRange A).flatMap (fun a => p.contents (.txPool a))).Perm
      (zonePackets phys size n i) := by
  obtain ⟨raw, z, init, hinit, hperm, -⟩ := h.zone
  rw [← (packetModuleInit_spec hinit).1]
  exact hperm

/-- **A process starts with each packet of its zone in one place.** -/
theorem exclusive (h : p.Started start phys size n i packet) :
    p.contents.Exclusive {q | q ∈ zonePackets phys size n i} := by
  have hperm := h.zone_perm
  obtain ⟨hfree, htx, hdisj⟩ :=
    List.nodup_append.mp (hperm.nodup_iff.mpr (nodup_zonePackets phys size n i))
  obtain ⟨htx, htxdisj⟩ := List.nodup_flatMap.mp htx
  have hpairs : ∀ {a b q}, q ∈ p.contents (.txPool a) → q ∈ p.contents (.txPool b) → a = b :=
    fun {a b q} ha hb => by
      by_contra hne
      have : Std.Symm (Function.onFun List.Disjoint fun a => p.contents (.txPool a)) :=
        ⟨fun _ _ hd => List.Disjoint.symm hd⟩
      exact htxdisj.forall (List.mem_finRange a) (List.mem_finRange b) hne ha hb
  have hapart : ∀ {a q}, q ∈ p.contents .free → q ∉ p.contents (.txPool a) := fun {a q} hq ha =>
    hdisj q hq q (List.mem_flatMap.mpr ⟨a, List.mem_finRange a, ha⟩) rfl
  have hcases : ∀ {z q}, q ∈ p.contents z → z = .free ∨ ∃ a, z = .txPool a := fun {z q} hq => by
    by_contra hno
    rw [not_or, not_exists] at hno
    rw [h.contents_eq_nil hno.1 hno.2] at hq
    exact absurd hq List.not_mem_nil
  refine ⟨fun z => ?_, fun {x y q} hx hy => ?_, fun q => ?_⟩
  · by_cases hz : z = .free ∨ ∃ a, z = .txPool a
    · obtain rfl | ⟨a, rfl⟩ := hz
      · exact hfree
      · exact htx a (List.mem_finRange a)
    · rw [not_or, not_exists] at hz
      rw [h.contents_eq_nil hz.1 hz.2]
      exact List.nodup_nil
  · obtain rfl | ⟨a, rfl⟩ := hcases hx
    · obtain rfl | ⟨b, rfl⟩ := hcases hy
      · rfl
      · exact absurd hy (hapart hx)
    · obtain rfl | ⟨b, rfl⟩ := hcases hy
      · exact absurd hx (hapart hy)
      · rw [hpairs hx hy]
  · rw [Set.mem_ofPred_eq, ← hperm.mem_iff, List.mem_append, List.mem_flatMap]
    constructor
    · rintro (hq | ⟨a, -, hq⟩)
      · exact ⟨.free, hq⟩
      · exact ⟨.txPool a, hq⟩
    · rintro ⟨z, hq⟩
      obtain rfl | ⟨a, rfl⟩ := hcases hq
      · exact Or.inl hq
      · exact Or.inr ⟨a, List.mem_finRange a, hq⟩

/-- A packet of the zone knows its name and its owner. -/
theorem identity (h : p.Started start phys size n i packet) {q : ℕ}
    (hq : q ∈ zonePackets phys size n i) : (packet q).phys = q ∧ (packet q).id = i := by
  obtain ⟨raw, z, init, hinit, -, hsame⟩ := h.zone
  obtain ⟨hlist, hspec⟩ := packetModuleInit_spec hinit
  have hbuf := hsame q (hlist ▸ hq)
  rw [Packet.SameBuffer] at hbuf
  rw [hbuf]
  exact hspec q hq

/-- **A process starts in order.** -/
theorem ok (h : p.Started start phys size n i packet) (owner : ℕ → ℕ) : p.Ok owner i := by
  refine ⟨⟨h.counted, fun a => ?_, fun a => ?_⟩, fun q hq => ?_, ?_⟩
  · obtain ⟨length, hr⟩ := h.rx_ring a
    rw [hr]
    exact ⟨DescRing.ok_create (by decide) length, PacketPool.counted_init⟩
  · obtain ⟨length, pool, hr, hcount⟩ := h.tx_ring a
    rw [hr]
    exact ⟨(DescRing.ok_create (by decide) length).setPool pool, hcount⟩
  · rw [h.pc] at hq
    exact absurd hq List.not_mem_nil
  · rw [h.pc]
    simp

end Process.Started

/-- The packets of all processes. -/
def allPackets (phys size n : ℕ) : Set ℕ := {q | ∃ i : Fin n, q ∈ zonePackets phys size n i}

namespace World

open Ledger

variable {n A start phys size : ℕ} {w : World n A}

/-- Nothing is in a queue at first. -/
theorem Started.queues (h : w.Started start phys size) (r c : Fin n) :
    w.contents (.pending r c) = [] ∧ w.contents (.slots r c) = [] := by
  obtain ⟨desc, hl⟩ := h.link r c
  rw [contents, contents, hl]
  refine ⟨rfl, ?_⟩
  rw [LfqLink.slots_of_idle rfl rfl, (LfqLink.inv_create (by decide) desc).published_eq]
  rfl

/-- **The invariant holds at first.** -/
theorem Started.inv (h : w.Started start phys size) :
    w.Inv (allPackets phys size n) (zoneOwner phys size n) := by
  have hproc : ∀ {x q}, q ∈ w.contents x → ∃ i z, x = .proc i z
      ∧ q ∈ (w.proc i).contents z ∧ q ∈ zonePackets phys size n i := fun {x q} hq => by
    cases x with
    | proc i z => exact ⟨i, z, rfl, hq, ((h.proc i).exclusive.covers q).mpr ⟨z, hq⟩⟩
    | pending r c =>
      rw [(h.queues r c).1] at hq
      exact absurd hq List.not_mem_nil
    | slots r c =>
      rw [(h.queues r c).2] at hq
      exact absurd hq List.not_mem_nil
  refine ⟨⟨fun x => ?_, fun {x y q} hx hy => ?_, fun q => ?_⟩, fun q hq => ?_, fun q hq => ?_,
    fun x q hq => ?_, fun i => (h.proc i).ok _, fun r c => ?_⟩
  · cases x with
    | proc i z => exact (h.proc i).exclusive.nodup z
    | pending r c =>
      rw [(h.queues r c).1]
      exact List.nodup_nil
    | slots r c =>
      rw [(h.queues r c).2]
      exact List.nodup_nil
  · obtain ⟨i, z, rfl, hz, hi⟩ := hproc hx
    obtain ⟨j, z', rfl, hz', hj⟩ := hproc hy
    obtain rfl : i = j := Fin.ext ((zoneOwner_of_mem hi).symm.trans (zoneOwner_of_mem hj))
    rw [(h.proc i).exclusive.unique hz hz']
  · constructor
    · rintro ⟨i, hq⟩
      obtain ⟨z, hz⟩ := ((h.proc i).exclusive.covers q).mp hq
      exact ⟨.proc i z, hz⟩
    · rintro ⟨x, hq⟩
      obtain ⟨i, z, rfl, -, hi⟩ := hproc hq
      exact ⟨i, hi⟩
  · obtain ⟨i, hi⟩ := hq
    exact ((h.proc i).identity hi).1
  · obtain ⟨i, hi⟩ := hq
    rw [zoneOwner_of_mem hi]
    exact ((h.proc i).identity hi).2
  · obtain ⟨i, z, rfl, hz, hi⟩ := hproc hq
    by_cases hplace : z = .free ∨ ∃ a, z = .txPool a
    · obtain rfl | ⟨a, rfl⟩ := hplace
      · exact zoneOwner_of_mem hi
      · trivial
    · rw [not_or, not_exists] at hplace
      rw [(h.proc i).contents_eq_nil hplace.1 hplace.2] at hz
      exact absurd hz List.not_mem_nil
  · obtain ⟨desc, hl⟩ := h.link r c
    exact ⟨0, 0, 0, hl ▸ LfqLink.inv_create (by decide) desc⟩

/-- **The invariant holds in every reachable state.** -/
theorem inv_of_reachable (h : (mainSystem n A start phys size).Reachable w) :
    w.Inv (allPackets phys size n) (zoneOwner phys size n) := by
  refine System.invariant (P := fun w => w.Inv (allPackets phys size n) (zoneOwner phys size n))
    (fun w hi => Started.inv hi) (fun w l t hinv hst => ?_) h
  cases l with
  | run i e => exact hinv.run hst
  | nicRecv i a k len frame =>
    obtain ⟨hk, rfl⟩ := hst
    exact hinv.nicRecv hk len frame
  | nicSent i a k =>
    obtain ⟨hk, rfl⟩ := hst
    exact hinv.nicSent hk

end World

/-! ## A small network -/

/-- A process takes `k` steps, or as many as it has. -/
def World.runSteps {n A : ℕ} (w : World n A) (i : Fin n) (e : Env n) : ℕ → World n A
  | 0 => w
  | k + 1 => ((w.runSteps i e k).run i e).getD (w.runSteps i e k)

theorem World.reachable_runSteps {n A start phys size : ℕ} {w : World n A}
    (h : (mainSystem n A start phys size).Reachable w) (i : Fin n) (e : Env n) (k : ℕ) :
    (mainSystem n A start phys size).Reachable (w.runSteps i e k) := by
  induction k with
  | zero => exact h
  | succ k ih =>
    rw [runSteps]
    cases hrun : (w.runSteps i e k).run i e with
    | none => exact ih
    | some t => exact ih.step (show (mainSystem n A start phys size).step _ (.run i e) t from hrun)

/-- Two processes with two packets each and one adapter, and a virtual server. -/
def twoProcesses : World 2 1 where
  packet q := packetInit (tcpPacket 3 1 [4, 133] [0, 80] 16) q (zoneOwner 4096 8192 2 q)
  proc i :=
    { pc := .allocRx 0
      tables := twoVservers (twoIps 1024 1027) 0
      adapter := fun _ =>
        ⟨0, ringCreate descNum (fun _ => 0), ringCreate descNum (fun _ => 0)⟩
      free_packet_pool := ⟨2, zonePackets 4096 8192 2 i⟩
      recv_from_driver := []
      recv_from_dispatch := []
      to_reclaim := []
      free_head := [] }
  link _ _ := ⟨lfqQueueCreateInit lfqDescNum (fun _ => 0), .idle, .idle, [], [], []⟩
  received _ := none
  count _ _ := 0
  tx_log _ _ := []

theorem started_twoProcesses : twoProcesses.Started 4096 4096 8192 where
  proc i :=
    { pc := rfl
      recv_from_driver := rfl
      recv_from_dispatch := rfl
      to_reclaim := rfl
      free_head := rfl
      zone := by
        refine ⟨fun _ => tcpPacket 3 1 [4, 133] [0, 80] 16, _, _, rfl, ?_, ?_⟩
        · exact List.Perm.of_eq (by fin_cases i <;> rfl)
        · intro q hq
          fin_cases i
          · obtain rfl | rfl : q = 4096 ∨ q = 6144 := by simpa using show q ∈ [4096, 6144] from hq
            all_goals rfl
          · obtain rfl | rfl : q = 8192 ∨ q = 10240 := by simpa using show q ∈ [8192, 10240] from hq
            all_goals rfl
      counted := rfl
      rx_ring := fun _ => ⟨_, rfl⟩
      tx_ring := fun _ => ⟨_, _, rfl, PacketPool.counted_init⟩ }
  link _ _ := ⟨_, rfl⟩
  received _ := rfl
  count _ _ := rfl
  tx_log _ _ := rfl

/-- What dispatches everything to the second process. -/
def toSecond : Env 2 := ⟨1, (0, 0), some 0x100000, 0⟩

/-- The first process has given its packets to the NIC, which received two segments of one
client. -/
def segmentsReceived : World 2 1 :=
  let frame := (tcpPacket 3 1 [4, 133] [0, 80] 16).data
  ((twoProcesses.runSteps 0 toSecond 2).nicRecv 0 0 0 60 frame).nicRecv 0 0 1 60 frame

/-- The first process has dispatched them to the second, which has sent them. -/
def segmentsSent : World 2 1 :=
  (segmentsReceived.runSteps 0 toSecond 18).runSteps 1 toSecond 27

theorem reachable_segmentsSent : (mainSystem 2 1 4096 4096 8192).Reachable segmentsSent := by
  have hfilled : (mainSystem 2 1 4096 4096 8192).Reachable (twoProcesses.runSteps 0 toSecond 2) :=
    World.reachable_runSteps (.of_init started_twoProcesses) 0 toSecond 2
  have hfirst := hfilled.step (show (mainSystem 2 1 4096 4096 8192).step _
    (.nicRecv 0 0 0 60 (tcpPacket 3 1 [4, 133] [0, 80] 16).data) _ from ⟨by decide +kernel, rfl⟩)
  have hsecond : (mainSystem 2 1 4096 4096 8192).Reachable segmentsReceived :=
    hfirst.step (show (mainSystem 2 1 4096 4096 8192).step _
      (.nicRecv 0 0 1 60 (tcpPacket 3 1 [4, 133] [0, 80] 16).data) _ from ⟨by decide +kernel, rfl⟩)
  exact World.reachable_runSteps (World.reachable_runSteps hsecond 0 toSecond 18) 1 toSecond 27

/-! ## Conservation -/

/-- **Every packet is in exactly one place.** -/
structure World.Conserved {n A : ℕ} (start phys size : ℕ) (w : World n A) : Prop where
  /-- A packet a process was given by `packet_module_init` is in exactly one place. -/
  place : ∀ (i : Fin n) raw z init, packetModuleInit start phys size n i raw = some (z, init) →
    ∀ q ∈ z.free_packet_pool.list, ∃! x, q ∈ w.contents x
  /-- It is there once. -/
  once : ∀ x, (w.contents x).Nodup
  /-- With neither side of a queue at work, its slots are the published ones. -/
  published : ∀ r c, (w.link r c).put = .idle → (w.link r c).get = .idle →
    w.contents (.slots r c) = (w.link r c).published
  /-- A process frees its own packets. -/
  free : ∀ i, ∀ q ∈ (w.proc i).free_packet_pool.list, (w.packet q).id = i
  /-- The pools count their packets. -/
  counted : ∀ i, (w.proc i).free_packet_pool.Counted
    ∧ ∀ a, ((w.proc i).adapter a).rx_ring.pool.Counted
      ∧ ((w.proc i).adapter a).tx_ring.pool.Counted
  /-- No process exits. -/
  running : ∀ i, (w.proc i).pc ≠ .exited

/-- **Packets are conserved over whole runs**: any number of processes, in any order,
whatever is received, whatever the NIC is done with, and wherever packets are dispatched. -/
theorem mainSystem_conserves {n A start phys size : ℕ} {w : World n A}
    (h : (mainSystem n A start phys size).Reachable w) : w.Conserved start phys size := by
  have hinv := World.inv_of_reachable h
  refine ⟨fun i raw z init hz q hq => hinv.exclusive.existsUnique ⟨i, ?_⟩, hinv.exclusive.nodup,
    fun r c hput hget => LfqLink.slots_of_idle hput hget, fun i q hq => ?_, fun i => ?_,
    fun i => (hinv.proc i).running⟩
  · rw [← (packetModuleInit_spec hz).1]
    exact hq
  · rw [hinv.id q (hinv.mem_items (x := .free) hq)]
    exact hinv.fits_proc (x := .free) hq
  · have hrings := (hinv.proc i).rings
    exact ⟨hrings.free, fun a => ⟨(hrings.rx a).2, (hrings.tx a).2⟩⟩

/-- A packet of the first process is on the transmit ring of the second, and nowhere else. -/
theorem mainSystem_conserves_segmentsSent :
    4096 ∈ segmentsSent.contents (.proc 1 (.txRing 0)) ∧ ∃! x, 4096 ∈ segmentsSent.contents x :=
  ⟨by decide +kernel, (mainSystem_conserves reachable_segmentsSent).place 0 (fun q =>
    tcpPacket 3 1 [4, 133] [0, 80] 16) _ _ rfl 4096 (by decide +kernel)⟩
