import Ustack.Driver
import Ustack.LfQueue
import Ustack.Process
import Ustack.Rings

/-!
# The main loop of every process

`main_loop` of `src/main.c` in `n` processes with `A` adapters each, with the stages it
calls: the dispatcher of `src/dispatch.c`, `process_packets` of `src/process.c` and the
zones of `src/packet.c`. A step of a process is one turn of one of the loops it is in: an
adapter, a packet of a list, or a shared access of a queue between two processes. Between
the steps of one process any other process and the NIC may take any number of steps.

A packet is named by its physical address, which is what the queues carry. The memory of
the packets is shared.

The process a packet is dispatched to is whatever the environment says; so are what a
packet's ports hold when the parser does not assign them, the answers of `malloc` and the
readings of the clock. An adapter index or a process id past the arrays is a null pointer:
the process gets no further.

Beside what the code has, a world keeps what the history knows: where each packet was
received last, and what was put on each transmit ring, in order.

The steps of a loop taken together are the function the loop is in: so for the loop of
`packet_zone_reclaim` (`run_packetZoneReclaim`).
-/

/-! ## Packet zones -/

/-- `PACKET_SIZE`. -/
def packetSize : ℕ := 2048

/-- `packet_init`, on memory that holds anything. -/
def packetInit (pkt : Packet) (phys id : ℕ) : Packet :=
  { pkt with lfq_state := .end_, phys := phys, len := 0, id := id }

/-- `struct packet_zone`: the packets of a process. -/
structure PacketZone where
  /-- The address of the first packet of all processes. -/
  start_all : ℕ
  /-- Its physical address. -/
  phys_all : ℕ
  /-- The address of the first packet of this process. -/
  start : ℕ
  /-- Its physical address. -/
  phys : ℕ
  /-- The bytes of this process. -/
  size : ℕ
  /-- The process. -/
  id : ℕ
  /-- The free packets. -/
  free_packet_pool : PacketPool

/-- `pool_add_packets`. -/
def poolAddPackets (zone : PacketZone) (pool : PacketPool) (packet : ℕ → Packet) :
    PacketPool × (ℕ → Packet) :=
  (List.range (zone.size / packetSize)).foldl (fun (pool, packet) i =>
    let phys := zone.phys + i * packetSize
    (packetPoolPut pool phys,
      Function.update packet phys (packetInit (packet phys) phys zone.id))) (pool, packet)

/-- `packet_zone_init`. -/
def packetZoneInit (start_all phys_all start phys size id : ℕ) (packet : ℕ → Packet) :
    PacketZone × (ℕ → Packet) :=
  let zone : PacketZone := ⟨start_all, phys_all, start, phys, size, id, packetPoolInit⟩
  let (pool, packet) := poolAddPackets zone zone.free_packet_pool packet
  ({ zone with free_packet_pool := pool }, packet)

/-- `packet_module_init`: the memory is cut into one zone a process. -/
def packetModuleInit (start phys size nproc id : ℕ) (packet : ℕ → Packet) :
    Option (PacketZone × (ℕ → Packet)) :=
  if nproc = 0 ∨ size ≤ 0 ∨ start ≤ 0 ∨ phys ≤ 0 then none
  else
    let total_num := size / packetSize
    let num := total_num / nproc
    let size := num * packetSize
    some (packetZoneInit start phys (start + size * id) (phys + size * id) size id packet)

/-- The packets of a process: as many as of every other, one after the other. -/
def zonePackets (phys size nproc id : ℕ) : List ℕ :=
  let num := size / packetSize / nproc
  (List.range num).map (fun k => phys + num * packetSize * id + k * packetSize)

/-- The process whose zone a packet is in. -/
def zoneOwner (phys size nproc pkt : ℕ) : ℕ :=
  (pkt - phys) / (size / packetSize / nproc * packetSize)

theorem packetSize_pos : 0 < packetSize := by decide

/-- The packets added are initialised and at the end of the pool. -/
theorem poolAddPackets_spec (zone : PacketZone) (pool : PacketPool) (packet : ℕ → Packet) :
    (poolAddPackets zone pool packet).1.list = pool.list
        ++ (List.range (zone.size / packetSize)).map (fun k => zone.phys + k * packetSize)
      ∧ ∀ q ∈ (List.range (zone.size / packetSize)).map (fun k => zone.phys + k * packetSize),
        ((poolAddPackets zone pool packet).2 q).phys = q
          ∧ ((poolAddPackets zone pool packet).2 q).id = zone.id := by
  unfold poolAddPackets
  induction zone.size / packetSize with
  | zero => simp
  | succ m ih =>
    obtain ⟨hlist, hpacket⟩ := ih
    rw [List.range_succ, List.foldl_append, List.map_append]
    refine ⟨?_, fun q hq => ?_⟩
    · rw [← List.append_assoc, ← hlist]
      rfl
    · dsimp only [List.foldl_cons, List.foldl_nil]
      by_cases he : q = zone.phys + m * packetSize
      · rw [he, Function.update_self]
        exact ⟨rfl, rfl⟩
      · rw [Function.update_of_ne he]
        exact hpacket q ((List.mem_append.mp hq).resolve_right (by simpa using he))

/-- **A zone that is created** has the packets of the process, and they know it. -/
theorem packetModuleInit_spec {start phys size nproc id : ℕ} {raw init : ℕ → Packet}
    {z : PacketZone} (h : packetModuleInit start phys size nproc id raw = some (z, init)) :
    z.free_packet_pool.list = zonePackets phys size nproc id
      ∧ ∀ q ∈ zonePackets phys size nproc id, (init q).phys = q ∧ (init q).id = id := by
  unfold packetModuleInit at h
  split at h
  · exact absurd h (by simp)
  · obtain ⟨rfl, rfl⟩ := Prod.mk.inj (Option.some.inj h)
    have hspec := poolAddPackets_spec ⟨start, phys,
      start + size / packetSize / nproc * packetSize * id,
      phys + size / packetSize / nproc * packetSize * id,
      size / packetSize / nproc * packetSize, id, packetPoolInit⟩ packetPoolInit raw
    dsimp only at hspec
    rw [Nat.mul_div_cancel _ packetSize_pos] at hspec
    exact hspec

theorem nodup_zonePackets (phys size nproc id : ℕ) :
    (zonePackets phys size nproc id).Nodup := by
  refine List.nodup_range.map (fun k k' he => ?_)
  exact Nat.eq_of_mul_eq_mul_right packetSize_pos (Nat.add_left_cancel he)

/-- Different processes have different packets. -/
theorem zoneOwner_of_mem {phys size nproc id pkt : ℕ} (h : pkt ∈ zonePackets phys size nproc id) :
    zoneOwner phys size nproc pkt = id := by
  obtain ⟨k, hk, rfl⟩ := List.mem_map.mp h
  have hlt : k * packetSize < size / packetSize / nproc * packetSize :=
    Nat.mul_lt_mul_of_pos_right (List.mem_range.mp hk) packetSize_pos
  have hpos := Nat.zero_lt_of_lt hlt
  show (phys + size / packetSize / nproc * packetSize * id + k * packetSize - phys)
    / (size / packetSize / nproc * packetSize) = id
  rw [Nat.add_assoc, Nat.add_sub_cancel_left, Nat.mul_add_div hpos, Nat.div_eq_of_lt hlt,
    Nat.add_zero]

/-! ## A process -/

/-- The number of slots `init` asks `lfq_module_init` for. -/
def lfqDescNum : ℕ := 1024

/-- Where `lfq_send_flush` is called. -/
inductive FlushSite
  /-- In `dispatch_packet`. -/
  | dispatch
  /-- In `dispatch_reclaim`. -/
  | reclaim
  /-- In `dispatch_flush`. -/
  | last
deriving DecidableEq

/-- Where a process is in `main_loop`. -/
inductive MainPc
  /-- `driver_alloc_rx_buffer`, at an adapter. -/
  | allocRx (i : ℕ)
  /-- The first loop of `driver_recv`, at an adapter. -/
  | recv (i : ℕ)
  /-- `driver_get_received_packets`, at an adapter. -/
  | received (i : ℕ)
  /-- `packet_init_and_filter`, at a packet of `recv_from_driver`. -/
  | filter (pos : ℕ)
  /-- The first loop of `dispatch_packet`, at a packet of `recv_from_driver`. -/
  | dispatch (pos : ℕ)
  /-- `lfq_send_flush`, at a queue. -/
  | flush (site : FlushSite) (i : ℕ)
  /-- `lfq_recv`, at a queue. -/
  | lfqRecv (i : ℕ)
  /-- The second loop of `dispatch_packet`, at a packet of `recv_from_dispatch`. -/
  | dispatched (pos : ℕ)
  /-- `process_packets` of `recv_from_driver`. -/
  | processDriver
  /-- `process_packets` of `recv_from_dispatch`. -/
  | processDispatch
  /-- `driver_reclaim_tx_buffer`, at an adapter. -/
  | reclaimTx (i : ℕ)
  /-- `dispatch_reclaim`, at a packet of `to_reclaim`. -/
  | dispatchReclaim (pos : ℕ)
  /-- `packet_zone_reclaim` of `free_head`. -/
  | zoneReclaimFree
  /-- `packet_zone_reclaim` of `to_reclaim`. -/
  | zoneReclaim
  /-- `driver_send`, at an adapter. -/
  | send (i : ℕ)
  /-- `timer_expire`. -/
  | timerExpire
  /-- The process called `exit`. -/
  | exited
deriving DecidableEq

/-- What follows `lfq_send_flush`. -/
def FlushSite.next : FlushSite → MainPc
  | .dispatch => .lfqRecv 0
  | .reclaim => .zoneReclaimFree
  | .last => .timerExpire

/-- A process: the locals of `main_loop` and what its `net_global` leads to. -/
structure Process (A : ℕ) where
  /-- Where it is. -/
  pc : MainPc
  /-- The connections, addresses and routes. -/
  tables : Tables
  /-- The adapters. -/
  adapter : Fin A → Adapter
  /-- The free packets of its zone. -/
  free_packet_pool : PacketPool
  /-- Received from the net. -/
  recv_from_driver : List ℕ
  /-- Received from other processes. -/
  recv_from_dispatch : List ℕ
  /-- Done with, of any process. -/
  to_reclaim : List ℕ
  /-- Done with, of this process. -/
  free_head : List ℕ

namespace Process

variable {A : ℕ}

/-- The process is elsewhere. -/
def goto (p : Process A) (pc : MainPc) : Process A := { p with pc := pc }

/-- The process with a receive ring replaced. -/
def setRx (p : Process A) (a : Fin A) (ring : DescRing) : Process A :=
  { p with adapter := Function.update p.adapter a { p.adapter a with rx_ring := ring } }

/-- The process with a transmit ring replaced. -/
def setTx (p : Process A) (a : Fin A) (ring : DescRing) : Process A :=
  { p with adapter := Function.update p.adapter a { p.adapter a with tx_ring := ring } }

variable (p : Process A) (a : Fin A) (ring : DescRing)

@[simp] theorem adapter_setRx : (p.setRx a ring).adapter a
    = { p.adapter a with rx_ring := ring } := Function.update_self _ _ _

@[simp] theorem adapter_setTx : (p.setTx a ring).adapter a
    = { p.adapter a with tx_ring := ring } := Function.update_self _ _ _

variable {p a ring}

theorem adapter_setRx_of_ne {b : Fin A} (hb : b ≠ a) :
    (p.setRx a ring).adapter b = p.adapter b := Function.update_of_ne hb _ _

theorem adapter_setTx_of_ne {b : Fin A} (hb : b ≠ a) :
    (p.setTx a ring).adapter b = p.adapter b := Function.update_of_ne hb _ _

theorem tx_ring_setRx (b : Fin A) :
    ((p.setRx a ring).adapter b).tx_ring = (p.adapter b).tx_ring := by
  by_cases hb : b = a
  · rw [hb, adapter_setRx]
  · rw [adapter_setRx_of_ne hb]

theorem rx_ring_setTx (b : Fin A) :
    ((p.setTx a ring).adapter b).rx_ring = (p.adapter b).rx_ring := by
  by_cases hb : b = a
  · rw [hb, adapter_setTx]
  · rw [adapter_setTx_of_ne hb]

end Process

section Stages

variable {A : ℕ}

/-- `adapter_alloc_rx_buffers`. -/
def adapterAllocRxBuffers (p : Process A) (a : Fin A) : Option (Process A) :=
  (ringAllocRxBuffers (p.adapter a).rx_ring p.free_packet_pool).map fun (ring, pp) =>
    { p.setRx a ring with free_packet_pool := pp }

/-- `adapter_recv`. -/
def adapterRecv (p : Process A) (packet : ℕ → Packet) (a : Fin A) :
    Option (Process A × (ℕ → Packet)) :=
  (ringRecv (p.adapter a).id (p.adapter a).rx_ring packet).map fun (ring, packet) =>
    (p.setRx a ring, packet)

/-- The body of `driver_get_received_packets`. -/
def driverGetReceivedPackets (p : Process A) (a : Fin A) : Process A :=
  let r := (p.adapter a).rx_ring
  let (head, pool) := packetPoolGetAll r.pool p.recv_from_driver
  { p.setRx a (r.setPool pool) with recv_from_driver := head }

/-- `driver_put_packet_to_send_buffer`. -/
def driverPutPacketToSendBuffer (p : Process A) (pkt : Packet) : Option (Process A) :=
  if h : pkt.adapter_idx.toNat < A then
    let r := (p.adapter ⟨_, h⟩).tx_ring
    some (p.setTx ⟨_, h⟩ (r.setPool (packetPoolPut r.pool pkt.phys)))
  else none

/-- `main_process_packets` in a process. The tables log what is handed to the driver. -/
def processPacket (malloc : Option ℕ) (p : Process A) (pkt : Packet) :
    Option (Verdict × Packet × Process A) :=
  let (ret, pkt, t) := mainProcessPackets malloc { p.tables with sent := [] } pkt
  (t.sent.foldlM driverPutPacketToSendBuffer { p with tables := t }).map fun p => (ret, pkt, p)

/-- `adapter_reclaim_tx_buffers`. -/
def adapterReclaimTxBuffers (p : Process A) (a : Fin A) : Option (Process A) :=
  (ringReclaimTxBuffers (p.adapter a).tx_ring p.to_reclaim).map fun (ring, head) =>
    { p.setTx a ring with to_reclaim := head }

/-- `adapter_send`. -/
def adapterSend (p : Process A) (a : Fin A) : Option (Process A) :=
  (ringSend (p.adapter a).tx_ring).map (p.setTx a)

end Stages

/-! ## All processes -/

/-- That a packet was taken from a receive ring. -/
structure Reception (n A : ℕ) where
  /-- The process that took it. -/
  proc : Fin n
  /-- The adapter of the ring. -/
  adapter : Fin A
  /-- How many packets had been taken from the ring before. -/
  serial : ℕ

/-- **All processes, their queues and their packets.** -/
structure World (n A : ℕ) where
  /-- The packets. -/
  packet : ℕ → Packet
  /-- The processes. -/
  proc : Fin n → Process A
  /-- The queues, by receiver and sender. -/
  link : Fin n → Fin n → LfqLink ℕ
  /-- Where each packet was received last. -/
  received : ℕ → Option (Reception n A)
  /-- How many packets were taken from each receive ring. -/
  count : Fin n → Fin A → ℕ
  /-- What was put on each transmit ring, of what was received. -/
  tx_log : Fin n → Fin A → List (Reception n A)

/-- What the environment says at a step. -/
structure Env (n : ℕ) where
  /-- What `__dispatch_ip_packet` answers. -/
  id : Fin n
  /-- What the uninitialised ports hold. -/
  garbage : UInt16 × UInt16
  /-- What `malloc` answers. -/
  malloc : Option ℕ
  /-- What the clock says. -/
  now : ℕ

namespace World

variable {n A : ℕ}

/-- The world with a process replaced. -/
def setProc (w : World n A) (i : Fin n) (p : Process A) : World n A :=
  { w with proc := Function.update w.proc i p }

/-- The world with a packet replaced. -/
def setPacket (w : World n A) (pos : ℕ) (pkt : Packet) : World n A :=
  { w with packet := Function.update w.packet pos pkt }

/-- The world with a queue replaced. -/
def setLink (w : World n A) (r c : Fin n) (link : LfqLink ℕ) : World n A :=
  { w with link := Function.update w.link r (Function.update (w.link r) c link) }

@[simp] theorem proc_setProc (w : World n A) (i : Fin n) (p : Process A) :
    (w.setProc i p).proc i = p := Function.update_self _ _ _

theorem proc_setProc_of_ne (w : World n A) {i j : Fin n} (p : Process A) (h : j ≠ i) :
    (w.setProc i p).proc j = w.proc j := Function.update_of_ne h _ _

@[simp] theorem link_setLink (w : World n A) (r c : Fin n) (link : LfqLink ℕ) :
    (w.setLink r c link).link r c = link := by
  simp [setLink]

theorem link_setLink_of_ne (w : World n A) {r c r' c' : Fin n} (link : LfqLink ℕ)
    (h : ¬ (r' = r ∧ c' = c)) : (w.setLink r c link).link r' c' = w.link r' c' := by
  show Function.update w.link r (Function.update (w.link r) c link) r' c' = w.link r' c'
  by_cases hr : r' = r
  · subst hr
    rw [Function.update_self, Function.update_of_ne (fun hc => h ⟨rfl, hc⟩)]
  · rw [Function.update_of_ne hr]

/-- A process is elsewhere. -/
def goto (w : World n A) (i : Fin n) (pc : MainPc) : World n A :=
  w.setProc i ((w.proc i).goto pc)

/-- A stage that exits or goes on at `pc`. -/
def stage (w : World n A) (i : Fin n) (pc : MainPc) (p : Option (Process A)) : World n A :=
  match p with
  | none => w.goto i .exited
  | some p => w.setProc i (p.goto pc)

/-- The receptions after `got` was taken from a ring, in this order. -/
def stamp (received : ℕ → Option (Reception n A)) (i : Fin n) (a : Fin A) (serial : ℕ)
    (got : List ℕ) : ℕ → Option (Reception n A) :=
  fun p => if p ∈ got then some ⟨i, a, serial + got.idxOf p⟩ else received p

/-- `adapter_recv`, and the record of it. -/
def recv (w : World n A) (i : Fin n) (a : Fin A) : World n A :=
  let p := w.proc i
  match adapterRecv p w.packet a with
  | none => w.goto i .exited
  | some (p', packet) =>
    let got := (p'.adapter a).rx_ring.pool.list.drop (p.adapter a).rx_ring.pool.list.length
    { w.setProc i (p'.goto (.recv (a + 1))) with
      packet := packet
      received := stamp w.received i a (w.count i a) got
      count := Function.update w.count i
        (Function.update (w.count i) a (w.count i a + got.length)) }

/-- `adapter_send`, and the record of it. -/
def send (w : World n A) (i : Fin n) (a : Fin A) : World n A :=
  let p := w.proc i
  match adapterSend p a with
  | none => w.goto i .exited
  | some p' =>
    let pool := (p.adapter a).tx_ring.pool.list
    let taken := pool.take (pool.length - (p'.adapter a).tx_ring.pool.list.length)
    { w.setProc i (p'.goto (.send (a + 1))) with
      tx_log := Function.update w.tx_log i
        (Function.update (w.tx_log i) a (w.tx_log i a ++ taken.filterMap w.received)) }

/-- The body of `packet_init_and_filter`. -/
def filter (w : World n A) (i : Fin n) (k pos : ℕ) (garbage : UInt16 × UInt16) : World n A :=
  let p := w.proc i
  let (ret, pkt) := packetRecvInit garbage (w.packet pos)
  (w.setPacket pos pkt).setProc i
    (if ret then p.goto (.filter (k + 1))
    else { p with
      recv_from_driver := p.recv_from_driver.eraseIdx k
      free_head := p.free_head ++ [pos] })

/-- `lfq_send` of a packet to a process. -/
def lfqSendTo (w : World n A) (i : Fin n) (pos : ℕ) (id : Fin n) : World n A :=
  let s := w.link id i
  w.setLink id i { s with queue := lfqSend s.queue pos, sent := s.sent ++ [pos] }

/-- The body of the first loop of `dispatch_packet`. -/
def dispatch (w : World n A) (i : Fin n) (k pos : ℕ) (id : Fin n) : World n A :=
  let p := w.proc i
  if packetIsIp (w.packet pos) = true ∧ id ≠ i then
    let w := w.setProc i { p with recv_from_driver := p.recv_from_driver.eraseIdx k }
    let w := w.setPacket pos (packetSetLfqState (w.packet pos) .dispatch)
    w.lfqSendTo i pos id
  else w.goto i (.dispatch (k + 1))

/-- A step of `__put_packet_to_queue`, on the queue to process `r`. -/
def put (w : World n A) (i r : Fin n) (site : FlushSite) : World n A :=
  let s := (w.link r i).putStep
  (w.setLink r i s).goto i (match s.put with
    | .idle => .flush site (r + 1)
    | .failed => .exited
    | _ => .flush site r)

/-- A step of `__get_packet_from_queue`, on the queue from process `c`. -/
def get (w : World n A) (i c : Fin n) : World n A :=
  let s := (w.link i c).getStep
  let p := w.proc i
  let p := { p with
    recv_from_dispatch := p.recv_from_dispatch ++ s.lhead.drop (w.link i c).lhead.length }
  (w.setLink i c s).setProc i (p.goto (match s.get with
    | .idle => .lfqRecv (c + 1)
    | .failed => .exited
    | _ => .lfqRecv c))

/-- The body of the second loop of `dispatch_packet`. -/
def dispatched (w : World n A) (i : Fin n) (k pos : ℕ) : Option (World n A) :=
  let p := w.proc i
  let q := { p with recv_from_dispatch := p.recv_from_dispatch.eraseIdx k }
  match (w.packet pos).lfq_state with
  | .start => some (w.goto i (.dispatched (k + 1)))
  | .dispatch => some (w.goto i (.dispatched (k + 1)))
  | .reclaim =>
    some ((w.setPacket pos (packetSetLfqState (w.packet pos) .end_)).setProc i
      { q with free_head := q.free_head ++ [pos] })
  | .xmit => (driverPutPacketToSendBuffer q (w.packet pos)).map (w.setProc i)
  | .end_ => some (w.goto i .exited)

/-- The body of `process_packets` of `recv_from_driver`. -/
def processDriver (w : World n A) (i : Fin n) (pos : ℕ) (rest : List ℕ)
    (malloc : Option ℕ) : Option (World n A) :=
  (processPacket malloc { w.proc i with recv_from_driver := rest } (w.packet pos)).map
    fun (ret, pkt, p) => (w.setPacket pos pkt).setProc i
      (if ret ≠ .stolen then { p with free_head := pos :: p.free_head } else p)

/-- The body of `process_packets` of `recv_from_dispatch`. -/
def processDispatch (w : World n A) (i : Fin n) (pos : ℕ) (rest : List ℕ)
    (malloc : Option ℕ) : Option (World n A) :=
  (processPacket malloc { w.proc i with recv_from_dispatch := rest } (w.packet pos)).map
    fun (ret, pkt, p) => (w.setPacket pos pkt).setProc i
      (if ret ≠ .stolen then { p with to_reclaim := pos :: p.to_reclaim } else p)

/-- The body of `dispatch_reclaim`. -/
def dispatchReclaim (w : World n A) (i : Fin n) (k pos : ℕ) : Option (World n A) :=
  let p := w.proc i
  let id := (w.packet pos).id
  if id ≠ i then
    if h : id < n then
      let w := w.setProc i { p with to_reclaim := p.to_reclaim.eraseIdx k }
      let w := w.setPacket pos (packetSetLfqState (w.packet pos) .reclaim)
      some (w.lfqSendTo i pos ⟨id, h⟩)
    else none
  else some (w.goto i (.dispatchReclaim (k + 1)))

/-- The body of `packet_zone_reclaim` of `free_head`. -/
def zoneReclaimFree (w : World n A) (i : Fin n) (pos : ℕ) (rest : List ℕ) : World n A :=
  let p := w.proc i
  w.setProc i { p with
    free_head := rest
    free_packet_pool := packetPoolPut p.free_packet_pool pos }

/-- The body of `packet_zone_reclaim` of `to_reclaim`. -/
def zoneReclaim (w : World n A) (i : Fin n) (pos : ℕ) (rest : List ℕ) : World n A :=
  let p := w.proc i
  w.setProc i { p with
    to_reclaim := rest
    free_packet_pool := packetPoolPut p.free_packet_pool pos }

/-- `timer_expire`, the last stage. -/
def timerExpire (w : World n A) (i : Fin n) (now : ℕ) : World n A :=
  let p := w.proc i
  w.setProc i { p with tables := connectionTimerExpire p.tables now, pc := .allocRx 0 }

/-- **The next step of a process**, if it has one. -/
def run (w : World n A) (i : Fin n) (e : Env n) : Option (World n A) :=
  let p := w.proc i
  match p.pc with
  | .allocRx a =>
    if h : a < A then some (w.stage i (.allocRx (a + 1)) (adapterAllocRxBuffers p ⟨a, h⟩))
    else some (w.goto i (.recv 0))
  | .recv a =>
    if h : a < A then some (w.recv i ⟨a, h⟩) else some (w.goto i (.received 0))
  | .received a =>
    if h : a < A then
      some (w.setProc i ((driverGetReceivedPackets p ⟨a, h⟩).goto (.received (a + 1))))
    else some (w.goto i (.filter 0))
  | .filter k =>
    match p.recv_from_driver[k]? with
    | some pos => some (w.filter i k pos e.garbage)
    | none => some (w.goto i (if p.recv_from_driver = [] then .lfqRecv 0 else .dispatch 0))
  | .dispatch k =>
    match p.recv_from_driver[k]? with
    | some pos => some (w.dispatch i k pos e.id)
    | none => some (w.goto i (.flush .dispatch 0))
  | .flush site j =>
    if h : j < n then
      if j = i then some (w.goto i (.flush site (j + 1))) else some (w.put i ⟨j, h⟩ site)
    else some (w.goto i site.next)
  | .lfqRecv j =>
    if h : j < n then
      if j = i then some (w.goto i (.lfqRecv (j + 1))) else some (w.get i ⟨j, h⟩)
    else some (w.goto i (.dispatched 0))
  | .dispatched k =>
    match p.recv_from_dispatch[k]? with
    | some pos => w.dispatched i k pos
    | none => some (w.goto i .processDriver)
  | .processDriver =>
    match p.recv_from_driver with
    | pos :: rest => w.processDriver i pos rest e.malloc
    | [] => some (w.goto i .processDispatch)
  | .processDispatch =>
    match p.recv_from_dispatch with
    | pos :: rest => w.processDispatch i pos rest e.malloc
    | [] => some (w.goto i (.reclaimTx 0))
  | .reclaimTx a =>
    if h : a < A then
      some (w.stage i (.reclaimTx (a + 1)) (adapterReclaimTxBuffers p ⟨a, h⟩))
    else some (w.goto i (if p.to_reclaim = [] then .zoneReclaimFree else .dispatchReclaim 0))
  | .dispatchReclaim k =>
    match p.to_reclaim[k]? with
    | some pos => w.dispatchReclaim i k pos
    | none => some (w.goto i (.flush .reclaim 0))
  | .zoneReclaimFree =>
    match p.free_head with
    | pos :: rest => some (w.zoneReclaimFree i pos rest)
    | [] => some (w.goto i .zoneReclaim)
  | .zoneReclaim =>
    match p.to_reclaim with
    | pos :: rest => some (w.zoneReclaim i pos rest)
    | [] => some (w.goto i (.send 0))
  | .send a =>
    if h : a < A then some (w.send i ⟨a, h⟩) else some (w.goto i (.flush .last 0))
  | .timerExpire => some (w.timerExpire i e.now)
  | .exited => none

/-- The NIC received a frame to a descriptor. -/
def nicRecv (w : World n A) (i : Fin n) (a : Fin A) (k : ℕ) (len : UInt16) (frame : Memory) :
    World n A :=
  let r := ((w.proc i).adapter a).rx_ring
  let w := w.setProc i ((w.proc i).setRx a (r.complete k len))
  match r.buffer k with
  | none => w
  | some pos => w.setPacket pos ((w.packet pos).setData frame)

/-- The NIC sent the frame of a descriptor. -/
def nicSent (w : World n A) (i : Fin n) (a : Fin A) (k : ℕ) : World n A :=
  let r := ((w.proc i).adapter a).tx_ring
  w.setProc i ((w.proc i).setTx a (r.complete k (r.length k)))

end World

/-! ## Initialised processes -/

/-- A packet is as it was initialised, but for its frame, its length and its adapter. -/
def Packet.SameBuffer (pkt init : Packet) : Prop :=
  pkt = { init with data := pkt.data, len := pkt.len, adapter_idx := pkt.adapter_idx }

/-- **A process at the start of its loop.** Packets of its zone may wait to be sent: ARP
requests. -/
structure Process.Started {A : ℕ} (p : Process A) (start phys size n i : ℕ)
    (packet : ℕ → Packet) : Prop where
  /-- It is at the first stage. -/
  pc : p.pc = .allocRx 0
  /-- Nothing is received from the net. -/
  recv_from_driver : p.recv_from_driver = []
  /-- Nothing is received from another process. -/
  recv_from_dispatch : p.recv_from_dispatch = []
  /-- Nothing is to reclaim. -/
  to_reclaim : p.to_reclaim = []
  /-- Nothing is to free. -/
  free_head : p.free_head = []
  /-- The packets of its zone are free, or wait to be sent. -/
  zone : ∃ raw z init, packetModuleInit start phys size n i raw = some (z, init)
    ∧ (p.free_packet_pool.list ++ (List.finRange A).flatMap
      (fun a => (p.adapter a).tx_ring.pool.list)).Perm z.free_packet_pool.list
    ∧ ∀ q ∈ z.free_packet_pool.list, (packet q).SameBuffer (init q)
  /-- The pool counts its packets. -/
  counted : p.free_packet_pool.Counted
  /-- A receive ring is as created. -/
  rx_ring : ∀ a, ∃ length, (p.adapter a).rx_ring = ringCreate descNum length
  /-- A transmit ring is as created, but for the packets that wait. -/
  tx_ring : ∀ a, ∃ length pool, (p.adapter a).tx_ring = (ringCreate descNum length).setPool pool
    ∧ pool.Counted

/-- **All processes at the start of their loops.** -/
structure World.Started {n A : ℕ} (start phys size : ℕ) (w : World n A) : Prop where
  /-- The processes are. -/
  proc : ∀ i, (w.proc i).Started start phys size n i w.packet
  /-- The queues are as created. -/
  link : ∀ r c, ∃ desc,
    w.link r c = ⟨lfqQueueCreateInit lfqDescNum desc, .idle, .idle, [], [], []⟩
  /-- Nothing was received. -/
  received : ∀ p, w.received p = none
  /-- Nothing was taken from a ring. -/
  count : ∀ i a, w.count i a = 0
  /-- Nothing was sent. -/
  tx_log : ∀ i a, w.tx_log i a = []

/-- What happens next. -/
inductive MainLabel (n A : ℕ)
  /-- A process takes a step. -/
  | run (i : Fin n) (e : Env n)
  /-- The NIC received a frame. -/
  | nicRecv (i : Fin n) (a : Fin A) (k : ℕ) (len : UInt16) (frame : Memory)
  /-- The NIC sent a frame. -/
  | nicSent (i : Fin n) (a : Fin A) (k : ℕ)

/-- **The main loops of `n` processes under any interleaving.** The NIC is done only with
descriptors it has. -/
def mainSystem (n A start phys size : ℕ) : System (World n A) (MainLabel n A) where
  init := World.Started start phys size
  step w l t :=
    match l with
    | .run i e => w.run i e = some t
    | .nicRecv i a k len frame => k ∈ ((w.proc i).adapter a).rx_ring.window
        ∧ t = w.nicRecv i a k len frame
    | .nicSent i a k => k ∈ ((w.proc i).adapter a).tx_ring.window ∧ t = w.nicSent i a k

/-! ## `packet_zone_reclaim`, step by step -/

section Reclaim

variable {n A start phys size : ℕ} {i : Fin n} {e : Env n} {w : World n A}

theorem World.setProc_setProc (w : World n A) (i : Fin n) (p q : Process A) :
    (w.setProc i p).setProc i q = w.setProc i q :=
  congrArg (fun proc => { w with proc := proc }) (Function.update_idem _ _ _)

/-- **A loop that puts packets back is `packet_pool_put_all`**, with nothing in between: it takes
a step for each packet of its list, and one to leave. -/
theorem run_packetPoolPutAll {p : List ℕ → PacketPool → Process A} {out : PacketPool → Process A}
    (hbody : ∀ (w : World n A) pos rest pp, w.proc i = p (pos :: rest) pp →
      w.run i e = some (w.setProc i (p rest (packetPoolPut pp pos))))
    (hend : ∀ (w : World n A) pp, w.proc i = p [] pp → w.run i e = some (w.setProc i (out pp)))
    {head : List ℕ} {pp : PacketPool} (hp : w.proc i = p head pp) :
    (mainSystem n A start phys size).Run w (List.replicate (head.length + 1) (.run i e))
      (w.setProc i (out (packetPoolPutAll pp head))) := by
  induction head generalizing w pp with
  | nil => exact .single (hend w pp hp)
  | cons pos rest ih =>
    have hfirst : (mainSystem n A start phys size).Run w [.run i e]
        (w.setProc i (p rest (packetPoolPut pp pos))) := .single (hbody w pos rest pp hp)
    have hrest := ih (World.proc_setProc w i (p rest (packetPoolPut pp pos)))
    rw [World.setProc_setProc] at hrest
    exact hfirst.append hrest

/-- **Both lists of `main_loop` are reclaimed**: with nothing in between, a process puts the
packets of `free_head` back, then those of `to_reclaim`, and goes on to send. -/
theorem run_packetZoneReclaim (e : Env n) {p : Process A} (hp : w.proc i = p)
    (hpc : p.pc = .zoneReclaimFree) :
    (mainSystem n A start phys size).Run w
      (List.replicate (p.free_head.length + 1) (.run i e)
        ++ List.replicate (p.to_reclaim.length + 1) (.run i e))
      (w.setProc i { p with
        pc := .send 0
        free_head := []
        to_reclaim := []
        free_packet_pool := packetPoolPutAll (packetPoolPutAll p.free_packet_pool p.free_head)
          p.to_reclaim }) := by
  have hfree := @run_packetPoolPutAll n A start phys size i e w
    (fun head pp => { p with pc := .zoneReclaimFree, free_head := head, free_packet_pool := pp })
    (fun pp => { p with pc := .zoneReclaim, free_head := [], free_packet_pool := pp })
    (fun w pos rest pp hp => by simp only [World.run, World.zoneReclaimFree, hp])
    (fun w pp hp => by simp only [World.run, World.goto, Process.goto, hp])
    p.free_head p.free_packet_pool (by rw [hp, ← hpc])
  have hreclaim := fun w' hp' => @run_packetPoolPutAll n A start phys size i e w'
    (fun head pp => { p with
      pc := .zoneReclaim, free_head := [], to_reclaim := head, free_packet_pool := pp })
    (fun pp => { p with
      pc := .send 0, free_head := [], to_reclaim := [], free_packet_pool := pp })
    (fun w pos rest pp hp => by simp only [World.run, World.zoneReclaim, hp])
    (fun w pp hp => by simp only [World.run, World.goto, Process.goto, hp])
    p.to_reclaim (packetPoolPutAll p.free_packet_pool p.free_head) hp'
  have hboth := hfree.append (hreclaim _ (World.proc_setProc _ _ _))
  rwa [World.setProc_setProc] at hboth

end Reclaim
