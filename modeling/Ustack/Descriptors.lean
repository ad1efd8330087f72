import Ustack.Blocks
import Ustack.Bytes
import Ustack.DescMap
import Ustack.Rings

/-!
# Descriptors in memory

A descriptor is sixteen bytes that the driver and the NIC write in turn. The driver writes the
`read` format: the address of a frame and, to transmit, a command with its length. The NIC writes
the `wb` format over it, in which one bit of a status word, DD, says that it is done. The words
of the two formats lie over each other, so a descriptor that is filled is one that is not done,
and one that is done no longer says where its frame is.

`DescRing` has the DD bits and the lengths only. Here the rings are over memory: `struct ring`
holds the addresses of its descriptors and of its tail register, and the functions of
`src/driver.c` load and store there. The ring over memory refines `DescRing` whatever the NIC
writes back (`mappedSystem_refines`), so what was proved of it holds of the bytes; and in every
state the tail register names the descriptors the NIC has, and those it is not done with are
descriptors of their frames (`mappedSystem_described`).
-/

/-! ## The words of a descriptor -/

/-- `E1000_RXD_STAT_DD`, and `E1000_TXD_STAT_DD`. -/
def e1000StatDd : UInt32 := 0x01

/-- `E1000_ADVTXD_DTYP_DATA`. -/
def e1000AdvtxdDtypData : UInt32 := 0x00300000

/-- `E1000_ADVTXD_DCMD_IFCS`. -/
def e1000AdvtxdDcmdIfcs : UInt32 := 0x02000000

/-- `E1000_ADVTXD_DCMD_DEXT`. -/
def e1000AdvtxdDcmdDext : UInt32 := 0x20000000

/-- `E1000_TXD_CMD_EOP`. -/
def e1000TxdCmdEop : UInt32 := 0x01000000

/-- `E1000_TXD_CMD_RS`. -/
def e1000TxdCmdRs : UInt32 := 0x08000000

/-- `E1000_ADVTXD_PAYLEN_SHIFT`. -/
def e1000AdvtxdPaylenShift : UInt32 := 14

/-- `cmd_type_len` of `ring_send_tx_buffer`, before the length. -/
def cmdTypeLen : UInt32 :=
  (e1000AdvtxdDtypData ||| e1000AdvtxdDcmdIfcs ||| e1000AdvtxdDcmdDext) ||| e1000TxdCmdEop
    ||| e1000TxdCmdRs

/-- The length a frame is sent with: 60 bytes at least. -/
def txLen (len : UInt16) : UInt32 := if len.toUInt32 < 60 then 60 else len.toUInt32

/-- Which half of a ring pair a ring is, and the format of its descriptors. -/
inductive DescFormat
  /-- `union e1000_adv_rx_desc`. -/
  | rx
  /-- `union e1000_adv_tx_desc`. -/
  | tx

/-- The offset of the status word in the `wb` format: `wb.upper.status_error`, `wb.status`. -/
def DescFormat.status : DescFormat → ℕ
  | .rx => 8
  | .tx => 12

/-- The DD bit of a descriptor at an address. -/
def descDone (f : DescFormat) (m : Memory) (desc : ℕ) : Bool :=
  load32 m (desc + f.status) &&& e1000StatDd != 0

/-! ## Rings over memory -/

/-- `struct ring`. -/
structure MappedRing where
  /-- The address of the descriptors. -/
  desc : ℕ
  /-- The number of descriptors. -/
  desc_num : ℕ
  /-- The first descriptor the NIC has. -/
  head : ℕ
  /-- The descriptor past the last one it has. -/
  tail : ℕ
  /-- The address of the tail register. -/
  tail_reg : ℕ
  /-- The packets received, or the packets to send. -/
  pool : PacketPool
  /-- The packet of a descriptor. -/
  buffer : ℕ → Option ℕ

/-- `writel`: the register has four bytes, and eight are stored. -/
def writel (m : Memory) (data addr : ℕ) : Memory := storeNat m addr 8 data

namespace MappedRing

/-- `ring_create`. -/
def ringCreate (tail_reg desc desc_num : ℕ) : MappedRing where
  desc := desc
  desc_num := desc_num
  head := 0
  tail := 0
  tail_reg := tail_reg
  pool := packetPoolInit
  buffer := fun _ => none

/-- `ring_rx_desc`, and `ring_tx_desc`. -/
def ringDesc (r : MappedRing) (i : ℕ) : ℕ := r.desc + i * sizeofAdvTxDesc

/-- Assign a buffer. -/
def setBuffer (r : MappedRing) (i : ℕ) (pkt : Option ℕ) : MappedRing :=
  { r with buffer := Function.update r.buffer i pkt }

/-- Assign the pool. -/
def setPool (r : MappedRing) (pool : PacketPool) : MappedRing := { r with pool := pool }

/-- Assign the tail. -/
def setTail (r : MappedRing) (i : ℕ) : MappedRing := { r with tail := i }

/-- Assign the head. -/
def setHead (r : MappedRing) (i : ℕ) : MappedRing := { r with head := i }

/-- A loop that counts its turns. -/
def counted {σ : Type*} (body : ℕ → σ → LoopBody σ) (i : ℕ) (s : σ × ℕ) : LoopBody (σ × ℕ) :=
  match body i s.1 with
  | .stop => .stop
  | .next t => .next (t, s.2 + 1)
  | .exit => .exit

/-- The end of the loops that add descriptors: the tail is stored, and its register, if any was
added. -/
def publish (r : MappedRing) (m : Memory) (count i : ℕ) : MappedRing × Memory :=
  if 0 < count then (r.setTail i, writel m i r.tail_reg) else (r, m)

/-- `ring_alloc_rx_buffer`. -/
def ringAllocRxBuffer (i : ℕ) (s : MappedRing × Memory × PacketPool) :
    LoopBody (MappedRing × Memory × PacketPool) :=
  let (r, m, pp) := s
  match packetPoolGet pp with
  | (none, _) => .stop
  | (some pkt, pp) =>
    let rx_desc := r.ringDesc i
    .next (r.setBuffer i (some pkt), storeNat (storeNat m rx_desc 8 pkt) (rx_desc + 8) 8 0, pp)

/-- `ring_alloc_rx_buffers`. -/
def ringAllocRxBuffers (r : MappedRing) (m : Memory) (pp : PacketPool) :
    Option (MappedRing × Memory × PacketPool) :=
  (ringLoop r.desc_num (fun i => (i + 1) % r.desc_num != r.head) (counted ringAllocRxBuffer)
    r.desc_num r.tail ((r, m, pp), 0)).map (fun (i, (r, m, pp), count) =>
      ((publish r m count i).1, (publish r m count i).2, pp))

/-- `ring_recv_rx_buffer`, on the ring of adapter `id`. -/
def ringRecvRxBuffer (id : UInt8) (i : ℕ) (s : MappedRing × Memory × (ℕ → Packet)) :
    LoopBody (MappedRing × Memory × (ℕ → Packet)) :=
  let (r, m, packet) := s
  let rx_desc := r.ringDesc i
  let staterr := load32 m (rx_desc + 8)
  if staterr &&& e1000StatDd != 0 then
    match r.buffer i with
    | none => .exit
    | some pkt =>
      let length := load16 m (rx_desc + 12)
      .next ((r.setBuffer i none).setPool (packetPoolPut r.pool pkt), store32 m (rx_desc + 8) 0,
        Function.update packet pkt ((packet pkt).setReceived length id))
  else .stop

/-- `ring_recv`. -/
def ringRecv (id : UInt8) (r : MappedRing) (m : Memory) (packet : ℕ → Packet) :
    Option (MappedRing × Memory × (ℕ → Packet)) :=
  (ringLoop r.desc_num (fun i => i != r.tail) (counted (ringRecvRxBuffer id)) r.desc_num r.head
    ((r, m, packet), 0)).map (fun (i, (r, m, packet), count) =>
      (if 0 < count then r.setHead i else r, m, packet))

/-- `ring_send_tx_buffer`. -/
def ringSendTxBuffer (packet : ℕ → Packet) (i : ℕ) (s : MappedRing × Memory) :
    LoopBody (MappedRing × Memory) :=
  let (r, m) := s
  let tx_desc := r.ringDesc i
  match packetPoolGet r.pool with
  | (none, _) => .stop
  | (some pkt, pool) =>
    let len := txLen (packet pkt).len
    let olinfo_status := len <<< e1000AdvtxdPaylenShift
    let m := storeNat m tx_desc 8 pkt
    let m := store32 m (tx_desc + 8) (cmdTypeLen ||| len)
    let m := store32 m (tx_desc + 12) olinfo_status
    .next ((r.setPool pool).setBuffer i (some pkt), m)

/-- `ring_send`. -/
def ringSend (packet : ℕ → Packet) (r : MappedRing) (m : Memory) :
    Option (MappedRing × Memory) :=
  (ringLoop r.desc_num (fun i => (i + 1) % r.desc_num != r.head)
    (counted (ringSendTxBuffer packet)) r.desc_num r.tail ((r, m), 0)).map
      (fun (i, (r, m), count) => publish r m count i)

/-- `ring_reclaim_tx_buffer`. -/
def ringReclaimTxBuffer (i : ℕ) (s : MappedRing × Memory × List ℕ) :
    LoopBody (MappedRing × Memory × List ℕ) :=
  let (r, m, head) := s
  let tx_desc := r.ringDesc i
  if load32 m (tx_desc + 12) &&& e1000StatDd != 0 then
    match r.buffer i with
    | none => .exit
    | some pkt => .next (r.setBuffer i none, store32 m (tx_desc + 12) 0, head ++ [pkt])
  else .stop

/-- `ring_reclaim_tx_buffers`. -/
def ringReclaimTxBuffers (r : MappedRing) (m : Memory) (head : List ℕ) :
    Option (MappedRing × Memory × List ℕ) :=
  (ringLoop r.desc_num (fun i => (i + 1) % r.desc_num != r.tail) (counted ringReclaimTxBuffer)
    r.desc_num r.head ((r, m, head), 0)).map (fun (i, (r, m, head), count) =>
      (if 0 < count then r.setHead i else r, m, head))

end MappedRing

/-! ## Filling and clearing a descriptor -/

/-- A length shifted past the status leaves DD clear. -/
theorem shift_and_statDd (len : UInt32) :
    (len <<< e1000AdvtxdPaylenShift) &&& e1000StatDd = 0 := by
  rw [← UInt32.toNat_inj, UInt32.toNat_and, UInt32.toNat_shiftLeft]
  show ((len.toNat <<< 14) % 2 ^ 32) &&& 1 = 0
  rw [Nat.and_one_is_mod, Nat.shiftLeft_eq]
  omega

/-- **What the driver writes to a descriptor**: where the frame is, and to transmit it how. -/
structure Described (f : DescFormat) (m : Memory) (desc pkt : ℕ) (len : UInt16) : Prop where
  /-- The address of the frame. -/
  addr : loadNat m desc 8 = pkt % 2 ^ 64
  /-- No buffer for the header. -/
  rx : f = .rx → loadNat m (desc + 8) 8 = 0
  /-- The command, and the length twice. -/
  tx : f = .tx → load32 m (desc + 8) = cmdTypeLen ||| txLen len
    ∧ load32 m (desc + 12) = txLen len <<< e1000AdvtxdPaylenShift

section Descriptor

variable {f : DescFormat} {m m' : Memory} {desc pkt : ℕ} {len : UInt16}

theorem descDone_congr (h : Agree m' m desc sizeofAdvTxDesc) :
    descDone f m' desc = descDone f m desc := by
  unfold sizeofAdvTxDesc at h
  unfold descDone
  cases f <;> rw [(h.sub (by simp [DescFormat.status]) (by simp [DescFormat.status])
    : Agree m' m (desc + _) 4).load32]

/-- The length of a receive descriptor. -/
theorem load16_desc_congr (h : Agree m' m desc sizeofAdvTxDesc) :
    load16 m' (desc + 12) = load16 m (desc + 12) := by
  unfold sizeofAdvTxDesc at h
  exact (h.sub (by omega) (by omega) : Agree m' m (desc + 12) 2).load16

theorem Described.congr (hd : Described f m desc pkt len)
    (h : Agree m' m desc sizeofAdvTxDesc) : Described f m' desc pkt len := by
  unfold sizeofAdvTxDesc at h
  refine ⟨?_, fun hf => ?_, fun hf => ?_⟩
  · rw [loadNat_congr (h.sub le_rfl (by omega))]
    exact hd.addr
  · rw [loadNat_congr (h.sub (by omega) (by omega))]
    exact hd.rx hf
  · rw [(h.sub (by omega) (by omega) : Agree m' m (desc + 8) 4).load32,
      (h.sub (by omega) (by omega) : Agree m' m (desc + 12) 4).load32]
    exact hd.tx hf

/-- Eight zero bytes are two words of zero. -/
theorem load32_of_loadNat_eq_zero {off : ℕ} (h : loadNat m off 8 = 0) : load32 m off = 0 := by
  have hload : loadNat m off 8 = loadNat m off 4 + 256 ^ 4 * loadNat m (off + 4) 4 := by
    simp only [loadNat, Nat.add_assoc]
    ring
  have hzero : loadNat m off 4 = 0 := by omega
  rw [load32_eq_ofNat, hzero]
  rfl

/-- A descriptor that is filled is not done. -/
theorem Described.notDone (hd : Described f m desc pkt len) : descDone f m desc = false := by
  rw [descDone, bne_eq_false_iff_eq]
  cases f with
  | rx =>
    rw [DescFormat.status, load32_of_loadNat_eq_zero (hd.rx rfl)]
    rfl
  | tx => rw [DescFormat.status, (hd.tx rfl).2, shift_and_statDd]

/-- A load that ends before a store. -/
theorem loadNat_storeNat_of_le (m : Memory) {off p k : ℕ} (n v : ℕ) (h : p + k ≤ off) :
    loadNat (storeNat m off n v) p k = loadNat m p k :=
  loadNat_congr (agree_storeBytes _ _ (Or.inl h))

theorem loadNat_store32_of_le (m : Memory) {off p k : ℕ} (v : UInt32) (h : p + k ≤ off) :
    loadNat (store32 m off v) p k = loadNat m p k :=
  loadNat_congr (agree_storeBytes _ _ (Or.inl h))

theorem load32_store32_of_le (m : Memory) {off p : ℕ} (v : UInt32) (h : p + 4 ≤ off) :
    load32 (store32 m off v) p = load32 m p :=
  Agree.load32 (agree_storeBytes _ _ (Or.inl h))

/-- The stores of `ring_alloc_rx_buffer`. -/
theorem described_rx (m : Memory) (desc pkt : ℕ) (len : UInt16) :
    Described .rx (storeNat (storeNat m desc 8 pkt) (desc + 8) 8 0) desc pkt len := by
  refine ⟨?_, fun _ => ?_, fun hf => absurd hf (by simp)⟩
  · rw [loadNat_storeNat_of_le _ _ _ le_rfl, loadNat_storeNat]
    norm_num
  · rw [loadNat_storeNat]
    exact Nat.zero_mod _

/-- The stores of `ring_send_tx_buffer`. -/
theorem described_tx (m : Memory) (desc pkt : ℕ) (len : UInt16) :
    Described .tx (store32 (store32 (storeNat m desc 8 pkt) (desc + 8) (cmdTypeLen ||| txLen len))
      (desc + 12) (txLen len <<< e1000AdvtxdPaylenShift)) desc pkt len := by
  refine ⟨?_, fun hf => absurd hf (by simp), fun _ => ⟨?_, ?_⟩⟩
  · rw [loadNat_store32_of_le _ _ (by omega), loadNat_store32_of_le _ _ le_rfl, loadNat_storeNat]
    norm_num
  · rw [load32_store32_of_le _ _ (by omega), load32_store32]
  · exact load32_store32 _ _ _

/-- A status word that is zeroed is not done. -/
theorem descDone_store32 (f : DescFormat) (m : Memory) (desc : ℕ) :
    descDone f (store32 m (desc + f.status) 0) desc = false := by
  rw [descDone, bne_eq_false_iff_eq, load32_store32]
  rfl

/-- The stores to a descriptor stay in it. -/
theorem agree_rx (m : Memory) (desc pkt : ℕ) {p k : ℕ}
    (h : p + k ≤ desc ∨ desc + sizeofAdvTxDesc ≤ p) :
    Agree (storeNat (storeNat m desc 8 pkt) (desc + 8) 8 0) m p k := by
  unfold sizeofAdvTxDesc at h
  exact (agree_storeBytes _ _ (by omega)).trans (agree_storeBytes _ _ (by omega))

theorem agree_tx (m : Memory) (desc pkt : ℕ) (cmd olinfo : UInt32) {p k : ℕ}
    (h : p + k ≤ desc ∨ desc + sizeofAdvTxDesc ≤ p) :
    Agree (store32 (store32 (storeNat m desc 8 pkt) (desc + 8) cmd) (desc + 12) olinfo) m p k := by
  unfold sizeofAdvTxDesc at h
  exact ((agree_storeBytes _ _ (by omega)).trans (agree_storeBytes _ _ (by omega))).trans
    (agree_storeBytes _ _ (by omega))

theorem agree_status (f : DescFormat) (m : Memory) (desc : ℕ) {p k : ℕ}
    (h : p + k ≤ desc ∨ desc + sizeofAdvTxDesc ≤ p) :
    Agree (store32 m (desc + f.status) 0) m p k := by
  unfold sizeofAdvTxDesc at h
  have hstatus : f.status + 4 ≤ 16 := by cases f <;> simp [DescFormat.status]
  exact agree_storeBytes _ _ (by omega)

end Descriptor

theorem txLen_toNat (len : UInt16) : 60 ≤ (txLen len).toNat ∧ (txLen len).toNat < 2 ^ 16 := by
  have hlen := len.toNat_lt
  unfold txLen
  split
  · decide
  · rename_i hge
    rw [UInt32.lt_iff_toNat_lt, UInt16.toNat_toUInt32] at hge
    rw [UInt16.toNat_toUInt32]
    exact ⟨not_lt.mp hge, hlen⟩

/-- **What the NIC reads of a transmit descriptor**: the length of the frame, which is in the
command and is the payload length too, and the command, of a whole frame in one descriptor that
is to be reported when it is sent. -/
theorem Described.words {m : Memory} {desc pkt : ℕ} {len : UInt16}
    (h : Described .tx m desc pkt len) :
    load32 m (desc + 8) &&& 0xFFFF = txLen len
      ∧ load32 m (desc + 8) >>> 16 = cmdTypeLen >>> 16
      ∧ load32 m (desc + 12) >>> e1000AdvtxdPaylenShift = txLen len := by
  obtain ⟨hcmd, hlen⟩ := h.tx rfl
  have hlt := (txLen_toNat len).2
  have hword : (cmdTypeLen ||| txLen len).toNat = 2 ^ 16 * 0x2B30 + (txLen len).toNat := by
    rw [Nat.two_pow_add_eq_or_of_lt hlt]
    exact UInt32.toNat_or _ _
  refine ⟨?_, ?_, ?_⟩
  · rw [hcmd, ← UInt32.toNat_inj, UInt32.toNat_and, hword]
    show _ &&& (2 ^ 16 - 1) = _
    rw [Nat.and_two_pow_sub_one_eq_mod]
    omega
  · rw [hcmd, ← UInt32.toNat_inj, UInt32.toNat_shiftRight, hword]
    show (2 ^ 16 * 0x2B30 + (txLen len).toNat) >>> 16 = 0x2B30
    rw [Nat.shiftRight_eq_div_pow]
    omega
  · rw [hlen, ← UInt32.toNat_inj, UInt32.toNat_shiftRight, UInt32.toNat_shiftLeft]
    show (((txLen len).toNat <<< 14) % 2 ^ 32) >>> 14 = (txLen len).toNat
    rw [Nat.shiftRight_eq_div_pow, Nat.shiftLeft_eq]
    omega

/-! ## The ring over memory and its model -/

namespace MappedRing

/-- **Where a ring is**: its indices fit a register, and its register is not in its
descriptors. -/
structure Placed (r : MappedRing) : Prop where
  /-- The number of descriptors. -/
  desc_num : r.desc_num ≤ 2 ^ 32
  /-- The register is apart from the descriptors. -/
  apart : r.tail_reg + 8 ≤ r.desc ∨ r.desc + r.desc_num * sizeofAdvTxDesc ≤ r.tail_reg

/-- **A ring over memory has a model**: DD is the bit of its descriptors, and a descriptor with
a packet that is not done is one of its frame. -/
structure Refines (f : DescFormat) (packet : ℕ → Packet) (r : MappedRing) (m : Memory)
    (a : DescRing) : Prop where
  /-- The number of descriptors. -/
  desc_num : a.desc_num = r.desc_num
  /-- The head. -/
  head : a.head = r.head
  /-- The tail. -/
  tail : a.tail = r.tail
  /-- The pool. -/
  pool : a.pool = r.pool
  /-- The packets of the descriptors. -/
  buffer : a.buffer = r.buffer
  /-- The DD bits. -/
  dd : ∀ i < r.desc_num, a.dd i = descDone f m (r.ringDesc i)
  /-- The lengths of the descriptors that are done. -/
  length : f = .rx → ∀ i < r.desc_num, a.dd i = true →
    a.length i = load16 m (r.ringDesc i + 12)
  /-- The descriptors that are not. -/
  described : ∀ i < r.desc_num, a.dd i = false → ∀ pkt, r.buffer i = some pkt →
    Described f m (r.ringDesc i) pkt (packet pkt).len

variable {f : DescFormat} {packet : ℕ → Packet} {r : MappedRing} {m m' : Memory} {a : DescRing}
  {i j pkt : ℕ}

/-- Two descriptors of a ring are apart. -/
theorem ringDesc_apart (r : MappedRing) (h : j ≠ i) :
    r.ringDesc j + sizeofAdvTxDesc ≤ r.ringDesc i
      ∨ r.ringDesc i + sizeofAdvTxDesc ≤ r.ringDesc j := by
  have hchunks : chunksApart sizeofAdvTxDesc (j * sizeofAdvTxDesc) (i * sizeofAdvTxDesc) :=
    chunksApart_mul h
  unfold chunksApart at hchunks
  unfold ringDesc
  omega

/-- A descriptor is within the ring. -/
theorem ringDesc_lt (r : MappedRing) (hi : i < r.desc_num) :
    r.desc ≤ r.ringDesc i
      ∧ r.ringDesc i + sizeofAdvTxDesc ≤ r.desc + r.desc_num * sizeofAdvTxDesc := by
  have hmul := @mul_add_le_mul sizeofAdvTxDesc _ _ hi
  unfold ringDesc
  omega

/-- Memory that holds the same descriptors. -/
theorem Refines.congr (h : Refines f packet r m a)
    (hagree : ∀ i < r.desc_num, Agree m' m (r.ringDesc i) sizeofAdvTxDesc) :
    Refines f packet r m' a where
  desc_num := h.desc_num
  head := h.head
  tail := h.tail
  pool := h.pool
  buffer := h.buffer
  dd i hi := (h.dd i hi).trans (descDone_congr (hagree i hi)).symm
  length hf i hi hdd := (h.length hf i hi hdd).trans (load16_desc_congr (hagree i hi)).symm
  described i hi hdd pkt hpkt := (h.described i hi hdd pkt hpkt).congr (hagree i hi)

/-- The pools of both. -/
theorem Refines.setPool (h : Refines f packet r m a) (pool : PacketPool) :
    Refines f packet (r.setPool pool) m (a.setPool pool) :=
  ⟨h.desc_num, h.head, h.tail, rfl, h.buffer, h.dd, h.length, h.described⟩

/-- The tails of both. -/
theorem Refines.setTail (h : Refines f packet r m a) (i : ℕ) :
    Refines f packet (r.setTail i) m (a.setTail i) :=
  ⟨h.desc_num, h.head, rfl, h.pool, h.buffer, h.dd, h.length, h.described⟩

/-- The heads of both. -/
theorem Refines.setHead (h : Refines f packet r m a) (i : ℕ) :
    Refines f packet (r.setHead i) m (a.setHead i) :=
  ⟨h.desc_num, rfl, h.tail, h.pool, h.buffer, h.dd, h.length, h.described⟩

/-- What a receive descriptor says is no matter of the packets. -/
theorem Refines.setPacket (h : Refines .rx packet r m a) (packet' : ℕ → Packet) :
    Refines .rx packet' r m a :=
  ⟨h.desc_num, h.head, h.tail, h.pool, h.buffer, h.dd, h.length,
    fun i hi hdd pkt hpkt => by
      have hd := h.described i hi hdd pkt hpkt
      exact ⟨hd.addr, hd.rx, fun hf => absurd hf (by simp)⟩⟩

/-- **A descriptor is assigned** by stores to it alone, which leave it not done, and described
if it has a packet. -/
theorem Refines.assign (h : Refines f packet r m a)
    (hagree : ∀ p k, p + k ≤ r.ringDesc i ∨ r.ringDesc i + sizeofAdvTxDesc ≤ p → Agree m' m p k)
    (hdone : descDone f m' (r.ringDesc i) = false) {x : Option ℕ}
    (hdesc : ∀ pkt, x = some pkt → Described f m' (r.ringDesc i) pkt (packet pkt).len) :
    Refines f packet (r.setBuffer i x) m'
      { a with buffer := Function.update a.buffer i x, dd := Function.update a.dd i false } := by
  have hothers : ∀ j, j ≠ i → Agree m' m (r.ringDesc j) sizeofAdvTxDesc :=
    fun j hj => hagree _ _ (r.ringDesc_apart hj)
  refine ⟨h.desc_num, h.head, h.tail, h.pool, ?_, fun j hj => ?_, fun hf j hj hdd => ?_,
    fun j hj hdd q hq => ?_⟩
  · show Function.update a.buffer i x = Function.update r.buffer i x
    rw [h.buffer]
  · show Function.update a.dd i false j = descDone f m' (r.ringDesc j)
    by_cases hji : j = i
    · rw [hji, Function.update_self, hdone]
    · rw [Function.update_of_ne hji, descDone_congr (hothers j hji)]
      exact h.dd j hj
  · have hdd' : Function.update a.dd i false j = true := hdd
    by_cases hji : j = i
    · rw [hji, Function.update_self] at hdd'
      exact absurd hdd' Bool.false_ne_true
    · rw [Function.update_of_ne hji] at hdd'
      show a.length j = load16 m' (r.ringDesc j + 12)
      rw [h.length hf j hj hdd', load16_desc_congr (hothers j hji)]
  · have hq' : Function.update r.buffer i x j = some q := hq
    by_cases hji : j = i
    · rw [hji, Function.update_self] at hq'
      rw [hji]
      exact hdesc q hq'
    · rw [Function.update_of_ne hji] at hq'
      have hdd' : a.dd j = false := (Function.update_of_ne hji _ _).symm.trans hdd
      exact (h.described j hj hdd' q hq').congr (hothers j hji)

/-- **A descriptor is filled** by stores that describe a packet. -/
theorem Refines.fill (h : Refines f packet r m a)
    (hagree : ∀ p k, p + k ≤ r.ringDesc i ∨ r.ringDesc i + sizeofAdvTxDesc ≤ p → Agree m' m p k)
    (hdesc : Described f m' (r.ringDesc i) pkt (packet pkt).len) :
    Refines f packet (r.setBuffer i (some pkt)) m' (a.fill i pkt) :=
  h.assign hagree hdesc.notDone (fun q hq => by
    obtain rfl := Option.some.inj hq
    exact hdesc)

/-- **A descriptor is cleared** by zeroing its status. -/
theorem Refines.clear (h : Refines f packet r m a) (i : ℕ) :
    Refines f packet (r.setBuffer i none) (store32 m (r.ringDesc i + f.status) 0)
      (a.clear i) :=
  h.assign (fun _ _ => agree_status f m _) (descDone_store32 f m _) (fun q hq => by
    exact absurd hq (by simp))

end MappedRing

/-! ## The loops of both -/

/-- Two bodies end a turn in the same way. -/
inductive LoopBody.Rel {σ τ : Type*} (R : σ → τ → Prop) : LoopBody σ → LoopBody τ → Prop
  | stop : Rel R .stop .stop
  | next {s : σ} {t : τ} (h : R s t) : Rel R (.next s) (.next t)
  | exit : Rel R .exit .exit

/-- **Two loops over the same descriptors** do the same where their bodies do. The one that
counts has counted nothing only where it started. -/
theorem ringLoop_counted {σ τ : Type*} {R : σ → τ → Prop} {size : ℕ} {guard : ℕ → Bool}
    {body : ℕ → σ → LoopBody σ} {body' : ℕ → τ → LoopBody τ}
    (hbody : ∀ i s t, i < size → R s t → LoopBody.Rel R (body i s) (body' i t)) (fuel : ℕ)
    {i count : ℕ} {s : σ} {t : τ} (hi : i < size) (hR : R s t) :
    Option.Rel (fun x y => x.1 = y.1 ∧ x.1 < size ∧ R x.2.1 y.2
        ∧ count ≤ x.2.2 ∧ (x.2.2 = count → x.1 = i))
      (ringLoop size guard (MappedRing.counted body) fuel i (s, count))
      (ringLoop size guard body' fuel i t) := by
  induction fuel generalizing i count s t with
  | zero => exact Option.Rel.some ⟨rfl, hi, hR, le_rfl, fun _ => rfl⟩
  | succ fuel ih =>
    rw [ringLoop, ringLoop]
    split
    · have hturn := hbody i s t hi hR
      rw [MappedRing.counted]
      dsimp only
      generalize body i s = x at hturn
      generalize body' i t = y at hturn
      cases hturn with
      | stop => exact Option.Rel.some ⟨rfl, hi, hR, le_rfl, fun _ => rfl⟩
      | exit => exact Option.Rel.none
      | next h =>
        have hrest := @ih _ (count + 1) _ _ (Nat.mod_lt (i + 1) (Nat.zero_lt_of_lt hi)) h
        dsimp only
        generalize ringLoop size guard (MappedRing.counted body) fuel _ _ = x at hrest
        generalize ringLoop size guard body' fuel _ _ = y at hrest
        cases hrest with
        | some hx =>
          obtain ⟨he, hlt, hR', hle, -⟩ := hx
          exact Option.Rel.some ⟨he, hlt, hR', by omega, fun hc => by omega⟩
        | none => exact Option.Rel.none
    · exact Option.Rel.some ⟨rfl, hi, hR, le_rfl, fun _ => rfl⟩

namespace MappedRing

/-- **What a loop stores to**: the descriptors of its ring. -/
structure Within (r : MappedRing) (m : Memory) (r' : MappedRing) (m' : Memory) : Prop where
  /-- The ring is where it was. -/
  desc : r'.desc = r.desc
  /-- It keeps its size. -/
  desc_num : r'.desc_num = r.desc_num
  /-- Its register is where it was. -/
  tail_reg : r'.tail_reg = r.tail_reg
  /-- The tail is stored later. -/
  tail : r'.tail = r.tail
  /-- Nothing else is stored to. -/
  agree : ∀ p k, p + k ≤ r.desc ∨ r.desc + r.desc_num * sizeofAdvTxDesc ≤ p → Agree m' m p k

/-- **What a call stores to**: the descriptors of its ring, and eight bytes at its register. -/
structure Touches (r : MappedRing) (m : Memory) (r' : MappedRing) (m' : Memory) : Prop where
  /-- The ring is where it was. -/
  desc : r'.desc = r.desc
  /-- It keeps its size. -/
  desc_num : r'.desc_num = r.desc_num
  /-- Its register is where it was. -/
  tail_reg : r'.tail_reg = r.tail_reg
  /-- Nothing else is stored to. -/
  agree : ∀ p k, p + k ≤ r.desc ∨ r.desc + r.desc_num * sizeofAdvTxDesc ≤ p →
    p + k ≤ r.tail_reg ∨ r.tail_reg + 8 ≤ p → Agree m' m p k
  /-- The register holds the tail, if it did. -/
  register : loadNat m r.tail_reg 4 = r.tail → loadNat m' r'.tail_reg 4 = r'.tail

variable {f : DescFormat} {packet : ℕ → Packet} {r r' : MappedRing} {m m' m'' : Memory}
  {a : DescRing} {i count : ℕ}

theorem Within.refl (r : MappedRing) (m : Memory) : r.Within m r m :=
  ⟨rfl, rfl, rfl, rfl, fun _ _ _ => Agree.refl _ _ _⟩

/-- A call that assigns no address stores nothing. -/
theorem Touches.refl (r : MappedRing) (m : Memory) : r.Touches m r m :=
  ⟨rfl, rfl, rfl, fun _ _ _ _ => Agree.refl _ _ _, id⟩

/-- One more store to a descriptor. -/
theorem Within.store (h : r.Within m r' m') (hi : i < r.desc_num) {r'' : MappedRing}
    (hr : r''.desc = r'.desc ∧ r''.desc_num = r'.desc_num ∧ r''.tail_reg = r'.tail_reg
      ∧ r''.tail = r'.tail)
    (hagree : ∀ p k, p + k ≤ r'.ringDesc i ∨ r'.ringDesc i + sizeofAdvTxDesc ≤ p →
      Agree m'' m' p k) : r.Within m r'' m'' where
  desc := hr.1.trans h.desc
  desc_num := hr.2.1.trans h.desc_num
  tail_reg := hr.2.2.1.trans h.tail_reg
  tail := hr.2.2.2.trans h.tail
  agree p k hp := by
    have hin := r'.ringDesc_lt (h.desc_num ▸ hi)
    rw [h.desc, h.desc_num] at hin
    exact (hagree p k (by omega)).trans (h.agree p k hp)

/-- The register is apart from what a loop stores to. -/
theorem Within.register (h : r.Within m r' m') (hp : r.Placed) :
    loadNat m' r.tail_reg 4 = loadNat m r.tail_reg 4 :=
  loadNat_congr (h.agree _ _ (hp.apart.imp (fun h => by omega) id))

/-- A loop that takes packets back ends with its head stored. -/
theorem Within.touches (h : r.Within m r' m') (hp : r.Placed) {i count : ℕ} :
    r.Touches m (if 0 < count then r'.setHead i else r') m' := by
  split
  all_goals
    refine ⟨h.desc, h.desc_num, h.tail_reg, fun p k hd _ => h.agree p k hd, fun hreg => ?_⟩
    show loadNat m' r'.tail_reg 4 = r'.tail
    rw [h.tail_reg, h.register hp, h.tail, hreg]

/-- A loop that adds packets ends with its tail stored, and its register. -/
theorem Within.publish (h : r.Within m r' m') (hp : r.Placed) (hi : i < r.desc_num) :
    r.Touches m (r'.publish m' count i).1 (r'.publish m' count i).2 := by
  have hnum := hp.desc_num
  unfold MappedRing.publish
  split
  · refine ⟨h.desc, h.desc_num, h.tail_reg, fun p k hd hreg => ?_, fun _ => ?_⟩
    · refine Agree.trans (agree_storeBytes _ _ ?_) (h.agree p k hd)
      rw [h.tail_reg]
      exact hreg
    · -- four bytes of the eight are the register
      have hload : loadNat (storeNat m' r'.tail_reg 8 i) r'.tail_reg 4 = i % 256 ^ 4 :=
        loadNat_of_bytes (fun j hj => storeBytes_add (by omega))
      exact hload.trans (Nat.mod_eq_of_lt (by omega))
  · refine ⟨h.desc, h.desc_num, h.tail_reg, fun p k hd _ => h.agree p k hd, fun hreg => ?_⟩
    show loadNat m' r'.tail_reg 4 = r'.tail
    rw [h.tail_reg, h.register hp, h.tail, hreg]

/-- What is published stays described: the register is no descriptor. -/
theorem Refines.publish (h : Refines f packet r m a) (hp : r.Placed)
    (hcount : count = 0 → i = r.tail) :
    Refines f packet (r.publish m count i).1 (r.publish m count i).2 (a.setTail i) := by
  unfold MappedRing.publish
  split
  · refine (h.setTail i).congr (fun j hj => agree_storeBytes _ _ ?_)
    have hin := r.ringDesc_lt hj
    show r.ringDesc j + sizeofAdvTxDesc ≤ r.tail_reg ∨ r.tail_reg + 8 ≤ r.ringDesc j
    have hapart := hp.apart
    omega
  · rw [hcount (by omega), ← h.tail]
    exact h

/-- What is taken back. -/
theorem Refines.setHead_if (h : Refines f packet r m a) (hcount : count = 0 → i = r.head) :
    Refines f packet (if 0 < count then r.setHead i else r) m (a.setHead i) := by
  split
  · exact h.setHead i
  · rw [hcount (by omega), ← h.head]
    exact h

end MappedRing

/-! ## The calls of both -/

section Calls

variable {f : DescFormat} {packet : ℕ → Packet} {r r' : MappedRing} {m m' : Memory}
  {a a' : DescRing} {i : ℕ}

/-- **What a loop over a ring and its model has done**: they are still a ring and its model, and
only descriptors were stored to. -/
structure MappedRing.InStep (f : DescFormat) (packet : ℕ → Packet) (r : MappedRing) (m : Memory)
    (r' : MappedRing) (m' : Memory) (a' : DescRing) : Prop where
  /-- A ring and its model. -/
  refines : r'.Refines f packet m' a'
  /-- The descriptors. -/
  within : r.Within m r' m'
  /-- The head is stored later. -/
  head : r'.head = r.head

theorem MappedRing.Refines.inStep (h : r.Refines f packet m a) :
    r.InStep f packet m r m a := ⟨h, .refl r m, rfl⟩

/-- One turn of `ring_alloc_rx_buffers`. -/
theorem rel_ringAllocRxBuffer {s : MappedRing × Memory × PacketPool} {t : DescRing × PacketPool}
    (hi : i < r.desc_num) (h : r.InStep .rx packet m s.1 s.2.1 t.1 ∧ s.2.2 = t.2) :
    LoopBody.Rel (fun s t => r.InStep .rx packet m s.1 s.2.1 t.1 ∧ s.2.2 = t.2)
      (MappedRing.ringAllocRxBuffer i s) (ringAllocRxBuffer i t) := by
  obtain ⟨r', m', pp⟩ := s
  obtain ⟨a', pp'⟩ := t
  obtain ⟨hstep, rfl⟩ := h
  unfold MappedRing.ringAllocRxBuffer ringAllocRxBuffer
  dsimp only
  generalize packetPoolGet pp = got
  obtain ⟨_ | pkt, pool⟩ := got
  · exact .stop
  · have hagree := fun p k hp => agree_rx m' (r'.ringDesc i) pkt (p := p) (k := k) hp
    exact .next ⟨⟨hstep.refines.fill hagree (described_rx m' _ pkt _),
      hstep.within.store hi ⟨rfl, rfl, rfl, rfl⟩ hagree, hstep.head⟩, rfl⟩

/-- One turn of `ring_recv`. -/
theorem rel_ringRecvRxBuffer (id : UInt8) {s : MappedRing × Memory × (ℕ → Packet)}
    {t : DescRing × (ℕ → Packet)} (hi : i < r.desc_num)
    (h : r.InStep .rx packet m s.1 s.2.1 t.1 ∧ s.2.2 = t.2) :
    LoopBody.Rel (fun s t => r.InStep .rx packet m s.1 s.2.1 t.1 ∧ s.2.2 = t.2)
      (MappedRing.ringRecvRxBuffer id i s) (ringRecvRxBuffer id i t) := by
  obtain ⟨r', m', packet'⟩ := s
  obtain ⟨a', packet''⟩ := t
  obtain ⟨hstep, rfl⟩ := h
  have hi' : i < r'.desc_num := hstep.within.desc_num ▸ hi
  have hdd : (load32 m' (r'.ringDesc i + 8) &&& e1000StatDd != 0) = a'.dd i :=
    (hstep.refines.dd i hi').symm
  unfold MappedRing.ringRecvRxBuffer ringRecvRxBuffer
  dsimp only
  rw [hdd, hstep.refines.buffer]
  by_cases hdone : a'.dd i = true
  · rw [if_pos hdone, if_pos hdone]
    cases hbuf : r'.buffer i with
    | none => exact .exit
    | some pkt =>
      have hpool : (a'.clear i).pool = r'.pool := hstep.refines.pool
      dsimp only
      rw [hpool, hstep.refines.length rfl i hi' hdone]
      exact .next ⟨⟨(hstep.refines.clear i).setPool _,
        hstep.within.store hi ⟨rfl, rfl, rfl, rfl⟩ (fun _ _ => agree_status .rx m' _),
        hstep.head⟩, rfl⟩
  · rw [if_neg hdone, if_neg hdone]
    exact .stop

/-- One turn of `ring_send`. -/
theorem rel_ringSendTxBuffer {s : MappedRing × Memory} {t : DescRing} (hi : i < r.desc_num)
    (h : r.InStep .tx packet m s.1 s.2 t) :
    LoopBody.Rel (fun s t => r.InStep .tx packet m s.1 s.2 t)
      (MappedRing.ringSendTxBuffer packet i s) (ringSendTxBuffer i t) := by
  obtain ⟨r', m'⟩ := s
  unfold MappedRing.ringSendTxBuffer ringSendTxBuffer
  dsimp only
  rw [h.refines.pool]
  dsimp only
  generalize packetPoolGet r'.pool = got
  obtain ⟨_ | pkt, pool⟩ := got
  · exact .stop
  · have hagree := fun p k hp => agree_tx m' (r'.ringDesc i) pkt
      (cmdTypeLen ||| txLen (packet pkt).len)
      (txLen (packet pkt).len <<< e1000AdvtxdPaylenShift) (p := p) (k := k) hp
    exact .next ⟨(h.refines.setPool pool).fill hagree (described_tx m' _ pkt _),
      h.within.store hi ⟨rfl, rfl, rfl, rfl⟩ hagree, h.head⟩

/-- One turn of `ring_reclaim_tx_buffers`. -/
theorem rel_ringReclaimTxBuffer {s : MappedRing × Memory × List ℕ} {t : DescRing × List ℕ}
    (hi : i < r.desc_num) (h : r.InStep .tx packet m s.1 s.2.1 t.1 ∧ s.2.2 = t.2) :
    LoopBody.Rel (fun s t => r.InStep .tx packet m s.1 s.2.1 t.1 ∧ s.2.2 = t.2)
      (MappedRing.ringReclaimTxBuffer i s) (ringReclaimTxBuffer i t) := by
  obtain ⟨r', m', head⟩ := s
  obtain ⟨a', head'⟩ := t
  obtain ⟨hstep, rfl⟩ := h
  have hi' : i < r'.desc_num := hstep.within.desc_num ▸ hi
  have hdd : (load32 m' (r'.ringDesc i + 12) &&& e1000StatDd != 0) = a'.dd i :=
    (hstep.refines.dd i hi').symm
  unfold MappedRing.ringReclaimTxBuffer ringReclaimTxBuffer
  dsimp only
  rw [hdd, hstep.refines.buffer]
  by_cases hdone : a'.dd i = true
  · rw [if_pos hdone, if_pos hdone]
    cases hbuf : r'.buffer i with
    | none => exact .exit
    | some pkt =>
      exact .next ⟨⟨hstep.refines.clear i,
        hstep.within.store hi ⟨rfl, rfl, rfl, rfl⟩ (fun _ _ => agree_status .tx m' _),
        hstep.head⟩, rfl⟩
  · rw [if_neg hdone, if_neg hdone]
    exact .stop

/-- **What a call leaves of a ring and its model.** -/
structure MappedRing.Called (f : DescFormat) (packet : ℕ → Packet) (r : MappedRing) (m : Memory)
    (r' : MappedRing) (m' : Memory) (a' : DescRing) : Prop where
  /-- A ring and its model. -/
  refines : r'.Refines f packet m' a'
  /-- The descriptors and the register. -/
  touches : r.Touches m r' m'

theorem MappedRing.InStep.placed (h : r.InStep f packet m r' m' a') (hp : r.Placed) :
    r'.Placed where
  desc_num := by
    rw [h.within.desc_num]
    exact hp.desc_num
  apart := by
    rw [h.within.desc_num, h.within.desc, h.within.tail_reg]
    exact hp.apart

/-- The end of a loop that adds packets. -/
theorem MappedRing.InStep.publish (h : r.InStep f packet m r' m' a') (hp : r.Placed) {count : ℕ}
    (hi : i < r.desc_num) (hcount : count = 0 → i = r.tail) :
    r.Called f packet m (r'.publish m' count i).1 (r'.publish m' count i).2 (a'.setTail i) :=
  ⟨h.refines.publish (h.placed hp) (fun h0 => (hcount h0).trans h.within.tail.symm),
    h.within.publish hp hi⟩

/-- The end of a loop that takes packets back. -/
theorem MappedRing.InStep.setHead (h : r.InStep f packet m r' m' a') (hp : r.Placed) {count : ℕ}
    (hcount : count = 0 → i = r.head) :
    r.Called f packet m (if 0 < count then r'.setHead i else r') m' (a'.setHead i) :=
  ⟨h.refines.setHead_if (fun h0 => (hcount h0).trans h.head.symm), h.within.touches hp⟩

/-- **`ring_alloc_rx_buffers` is the model's.** -/
theorem rel_ringAllocRxBuffers (h : r.Refines .rx packet m a) (hp : r.Placed)
    (ht : r.tail < r.desc_num) (pp : PacketPool) :
    Option.Rel (fun x y => r.Called .rx packet m x.1 x.2.1 y.1 ∧ x.2.2 = y.2)
      (MappedRing.ringAllocRxBuffers r m pp) (ringAllocRxBuffers a pp) := by
  unfold MappedRing.ringAllocRxBuffers ringAllocRxBuffers
  rw [h.desc_num, h.head, h.tail]
  have hloop : Option.Rel _
      (ringLoop r.desc_num (fun i => (i + 1) % r.desc_num != r.head)
        (MappedRing.counted MappedRing.ringAllocRxBuffer) r.desc_num r.tail ((r, m, pp), 0))
      (ringLoop r.desc_num (fun i => (i + 1) % r.desc_num != r.head) ringAllocRxBuffer
        r.desc_num r.tail (a, pp)) :=
    ringLoop_counted (fun _ _ _ => rel_ringAllocRxBuffer) r.desc_num ht ⟨h.inStep, rfl⟩
  generalize ringLoop r.desc_num _ (MappedRing.counted _) _ _ _ = x at hloop ⊢
  generalize ringLoop r.desc_num _ ringAllocRxBuffer _ _ _ = y at hloop ⊢
  cases hloop with
  | none => exact .none
  | @some x y hx =>
    obtain ⟨i, ⟨r', m', pp'⟩, count⟩ := x
    obtain ⟨j, a', pp''⟩ := y
    obtain ⟨rfl, hi, ⟨hstep, rfl⟩, -, hcount⟩ := hx
    exact .some ⟨hstep.publish hp hi hcount, rfl⟩

/-- **`ring_recv` is the model's.** -/
theorem rel_ringRecv (h : r.Refines .rx packet m a) (hp : r.Placed) (hh : r.head < r.desc_num)
    (id : UInt8) (packets : ℕ → Packet) :
    Option.Rel (fun x y => r.Called .rx packet m x.1 x.2.1 y.1 ∧ x.2.2 = y.2)
      (MappedRing.ringRecv id r m packets) (ringRecv id a packets) := by
  unfold MappedRing.ringRecv ringRecv
  rw [h.desc_num, h.head, h.tail]
  have hloop : Option.Rel _
      (ringLoop r.desc_num (fun i => i != r.tail)
        (MappedRing.counted (MappedRing.ringRecvRxBuffer id)) r.desc_num r.head
        ((r, m, packets), 0))
      (ringLoop r.desc_num (fun i => i != r.tail) (ringRecvRxBuffer id) r.desc_num r.head
        (a, packets)) :=
    ringLoop_counted (fun _ _ _ => rel_ringRecvRxBuffer id) r.desc_num hh ⟨h.inStep, rfl⟩
  generalize ringLoop r.desc_num _ (MappedRing.counted _) _ _ _ = x at hloop ⊢
  generalize ringLoop r.desc_num _ (ringRecvRxBuffer id) _ _ _ = y at hloop ⊢
  cases hloop with
  | none => exact .none
  | @some x y hx =>
    obtain ⟨i, ⟨r', m', packets'⟩, count⟩ := x
    obtain ⟨j, a', packets''⟩ := y
    obtain ⟨rfl, -, ⟨hstep, rfl⟩, -, hcount⟩ := hx
    exact .some ⟨hstep.setHead hp hcount, rfl⟩

/-- **`ring_send` is the model's.** -/
theorem rel_ringSend (h : r.Refines .tx packet m a) (hp : r.Placed) (ht : r.tail < r.desc_num) :
    Option.Rel (fun x y => r.Called .tx packet m x.1 x.2 y)
      (MappedRing.ringSend packet r m) (ringSend a) := by
  unfold MappedRing.ringSend ringSend
  rw [h.desc_num, h.head, h.tail]
  have hloop : Option.Rel _
      (ringLoop r.desc_num (fun i => (i + 1) % r.desc_num != r.head)
        (MappedRing.counted (MappedRing.ringSendTxBuffer packet)) r.desc_num r.tail ((r, m), 0))
      (ringLoop r.desc_num (fun i => (i + 1) % r.desc_num != r.head) ringSendTxBuffer
        r.desc_num r.tail a) :=
    ringLoop_counted (fun _ _ _ => rel_ringSendTxBuffer) r.desc_num ht h.inStep
  generalize ringLoop r.desc_num _ (MappedRing.counted _) _ _ _ = x at hloop ⊢
  generalize ringLoop r.desc_num _ ringSendTxBuffer _ _ _ = y at hloop ⊢
  cases hloop with
  | none => exact .none
  | @some x y hx =>
    obtain ⟨i, ⟨r', m'⟩, count⟩ := x
    obtain ⟨j, a'⟩ := y
    obtain ⟨rfl, hi, hstep, -, hcount⟩ := hx
    exact .some (hstep.publish hp hi hcount)

/-- **`ring_reclaim_tx_buffers` is the model's.** -/
theorem rel_ringReclaimTxBuffers (h : r.Refines .tx packet m a) (hp : r.Placed)
    (hh : r.head < r.desc_num) (head : List ℕ) :
    Option.Rel (fun x y => r.Called .tx packet m x.1 x.2.1 y.1 ∧ x.2.2 = y.2)
      (MappedRing.ringReclaimTxBuffers r m head) (ringReclaimTxBuffers a head) := by
  unfold MappedRing.ringReclaimTxBuffers ringReclaimTxBuffers
  rw [h.desc_num, h.head, h.tail]
  have hloop : Option.Rel _
      (ringLoop r.desc_num (fun i => (i + 1) % r.desc_num != r.tail)
        (MappedRing.counted MappedRing.ringReclaimTxBuffer) r.desc_num r.head ((r, m, head), 0))
      (ringLoop r.desc_num (fun i => (i + 1) % r.desc_num != r.tail) ringReclaimTxBuffer
        r.desc_num r.head (a, head)) :=
    ringLoop_counted (fun _ _ _ => rel_ringReclaimTxBuffer) r.desc_num hh ⟨h.inStep, rfl⟩
  generalize ringLoop r.desc_num _ (MappedRing.counted _) _ _ _ = x at hloop ⊢
  generalize ringLoop r.desc_num _ ringReclaimTxBuffer _ _ _ = y at hloop ⊢
  cases hloop with
  | none => exact .none
  | @some x y hx =>
    obtain ⟨i, ⟨r', m', head'⟩, count⟩ := x
    obtain ⟨j, a', head''⟩ := y
    obtain ⟨rfl, -, ⟨hstep, rfl⟩, -, hcount⟩ := hx
    exact .some ⟨hstep.setHead hp hcount, rfl⟩

end Calls

/-! ## Every run -/

/-- A ring over memory, and the packets that went through it. -/
structure MappedRun where
  /-- The ring. -/
  ring : MappedRing
  /-- The memory its addresses point into. -/
  mem : Memory
  /-- The packets. -/
  packet : ℕ → Packet
  /-- The packets given to descriptors so far, in order. -/
  entered : List ℕ
  /-- The packets taken back so far, in order. -/
  left : List ℕ
  /-- The process exited, or dereferenced a buffer that is not there. -/
  exited : Bool

/-- What happens next at a ring over memory. -/
inductive MappedLabel
  /-- `ring_alloc_rx_buffers`, from a pool of packets. -/
  | alloc (pool : List ℕ)
  /-- `ring_recv`, by adapter `id`. -/
  | recv (id : UInt8)
  /-- `packet_pool_put` to the pool of the ring. -/
  | put (pkt : ℕ)
  /-- `ring_send`. -/
  | send
  /-- `ring_reclaim_tx_buffers`, to a list of packets. -/
  | reclaim (head : List ℕ)
  /-- The NIC writes a descriptor back. -/
  | nic (i : ℕ) (wb : Memory)
  /-- Someone else stores elsewhere. -/
  | other (m : Memory) (packet : ℕ → Packet)

/-- The descriptors the NIC has. -/
def MappedRing.window (r : MappedRing) : List ℕ :=
  cyclic r.desc_num r.head (cyclicDist r.desc_num r.head r.tail)

namespace MappedRun

/-- The process exits. -/
def exit (s : MappedRun) : MappedRun := { s with exited := true }

/-- What a call does to a ring, its memory and its logs. -/
def step (s : MappedRun) : MappedLabel → MappedRun
  | .alloc pool =>
    match s.ring.ringAllocRxBuffers s.mem ⟨pool.length, pool⟩ with
    | none => s.exit
    | some (ring, mem, pp) => { s with
        ring := ring
        mem := mem
        entered := s.entered ++ pool.take (pool.length - pp.list.length) }
  | .recv id =>
    match MappedRing.ringRecv id s.ring s.mem s.packet with
    | none => s.exit
    | some (ring, mem, packet) => { s with
        ring := ring
        mem := mem
        packet := packet
        left := s.left ++ ring.pool.list.drop s.ring.pool.list.length }
  | .put pkt => { s with ring := s.ring.setPool (packetPoolPut s.ring.pool pkt) }
  | .send =>
    match MappedRing.ringSend s.packet s.ring s.mem with
    | none => s.exit
    | some (ring, mem) => { s with
        ring := ring
        mem := mem
        entered := s.entered
          ++ s.ring.pool.list.take (s.ring.pool.list.length - ring.pool.list.length) }
  | .reclaim head =>
    match s.ring.ringReclaimTxBuffers s.mem head with
    | none => s.exit
    | some (ring, mem, head') => { s with
        ring := ring
        mem := mem
        left := s.left ++ head'.drop head.length }
  | .nic i wb => { s with mem := storeBytes s.mem (s.ring.ringDesc i) sizeofAdvTxDesc wb }
  | .other m packet => { s with mem := m, packet := packet }

/-- What may happen at a ring: the calls of its half of the driver, a write-back with DD set to a
descriptor the NIC has, and stores that spare the ring and the packets it has. -/
def Admits (f : DescFormat) (s : MappedRun) : MappedLabel → Prop
  | .alloc _ | .recv _ => f = .rx
  | .put _ | .send | .reclaim _ => f = .tx
  | .nic i wb => i ∈ s.ring.window ∧ descDone f wb 0 = true
  | .other m packet => Agree m s.mem s.ring.desc (s.ring.desc_num * sizeofAdvTxDesc)
      ∧ Agree m s.mem s.ring.tail_reg 4
      ∧ ∀ i pkt, s.ring.buffer i = some pkt → packet pkt = s.packet pkt

end MappedRun

/-- **A ring of `size` descriptors in memory, under any interleaving.** At first nothing is done,
and the register is zero. -/
def mappedSystem (f : DescFormat) (size : ℕ) : System MappedRun MappedLabel where
  init s := s.ring.Placed ∧ s.ring = MappedRing.ringCreate s.ring.tail_reg s.ring.desc size
    ∧ (∀ i < size, descDone f s.mem (s.ring.ringDesc i) = false)
    ∧ loadNat s.mem s.ring.tail_reg 4 = 0
    ∧ s.entered = [] ∧ s.left = [] ∧ s.exited = false
  step s l t := s.exited = false ∧ s.Admits f l ∧ t = s.step l

/-- **A run over memory and one of the model.** -/
structure MappedRun.Refines (f : DescFormat) (s : MappedRun) (t : RingRun) : Prop where
  /-- The ring. -/
  ring : s.ring.Refines f s.packet s.mem t.ring
  /-- Where it is. -/
  placed : s.ring.Placed
  /-- The tail register. -/
  register : loadNat s.mem s.ring.tail_reg 4 = s.ring.tail
  /-- The packets given to descriptors. -/
  entered : t.entered = s.entered
  /-- The packets taken back. -/
  left : t.left = s.left
  /-- Whether the process exited. -/
  exited : t.exited = s.exited

section Refines

variable {f : DescFormat} {packet : ℕ → Packet} {r : MappedRing} {m m' : Memory}
  {a : DescRing} {i : ℕ}

/-- What the packets in the descriptors are is all that matters of the packets. -/
theorem MappedRing.Refines.congr_packet (h : r.Refines f packet m a) {packet' : ℕ → Packet}
    (hp : ∀ i pkt, r.buffer i = some pkt → packet' pkt = packet pkt) :
    r.Refines f packet' m a :=
  ⟨h.desc_num, h.head, h.tail, h.pool, h.buffer, h.dd, h.length, fun i hi hdd pkt hpkt => by
    rw [hp i pkt hpkt]
    exact h.described i hi hdd pkt hpkt⟩

/-- What was stored at the start of a block, loaded at an offset. -/
theorem agree_storeBytes_self (m wb : Memory) {off n p k : ℕ} (h : p + k ≤ n) :
    ∀ i < k, storeBytes m off n wb (off + p + i) = wb (p + i) := fun i hi => by
  rw [Nat.add_assoc]
  exact storeBytes_add (by omega)

/-- **A descriptor is written back.** -/
theorem MappedRing.Refines.nic (h : r.Refines f packet m a) {wb : Memory}
    (hdone : descDone f wb 0 = true) :
    r.Refines f packet (storeBytes m (r.ringDesc i) sizeofAdvTxDesc wb)
      (a.complete i (load16 wb 12)) := by
  have hothers : ∀ j, j ≠ i → Agree (storeBytes m (r.ringDesc i) sizeofAdvTxDesc wb) m
      (r.ringDesc j) sizeofAdvTxDesc :=
    fun j hj => agree_storeBytes m wb (r.ringDesc_apart hj)
  have hself : ∀ p k, p + k ≤ sizeofAdvTxDesc → ∀ j < k,
      storeBytes m (r.ringDesc i) sizeofAdvTxDesc wb (r.ringDesc i + p + j) = wb (p + j) :=
    fun p k hpk => agree_storeBytes_self m wb hpk
  have hdone' : descDone f (storeBytes m (r.ringDesc i) sizeofAdvTxDesc wb) (r.ringDesc i)
      = true := by
    rw [← hdone, descDone, descDone]
    congr 2
    have hword : ∀ j < 4, storeBytes m (r.ringDesc i) sizeofAdvTxDesc wb
        (r.ringDesc i + f.status + j) = wb (0 + f.status + j) := by
      rw [Nat.zero_add]
      exact hself f.status 4 (by cases f <;> decide)
    have h0 := hword 0 (by omega)
    rw [Nat.add_zero, Nat.add_zero] at h0
    rw [load32, load32, h0, hword 1 (by omega), hword 2 (by omega), hword 3 (by omega)]
  refine ⟨h.desc_num, h.head, h.tail, h.pool, h.buffer, fun j hj => ?_, fun hf j hj hdd => ?_,
    fun j hj hdd q hq => ?_⟩
  · show Function.update a.dd i true j = _
    by_cases hji : j = i
    · rw [hji, Function.update_self, hdone']
    · rw [Function.update_of_ne hji, descDone_congr (hothers j hji)]
      exact h.dd j hj
  · show Function.update a.length i (load16 wb 12) j = _
    by_cases hji : j = i
    · have h0 := hself 12 2 (by decide) 0 (by omega)
      rw [Nat.add_zero, Nat.add_zero] at h0
      rw [hji, Function.update_self, load16, load16, h0, hself 12 2 (by decide) 1 (by omega)]
    · have hdd' : a.dd j = true := (Function.update_of_ne hji _ _).symm.trans hdd
      rw [Function.update_of_ne hji, h.length hf j hj hdd']
      exact (load16_desc_congr (hothers j hji)).symm
  · have hdd' : Function.update a.dd i true j = false := hdd
    by_cases hji : j = i
    · rw [hji, Function.update_self] at hdd'
      exact absurd hdd'.symm Bool.false_ne_true
    · rw [Function.update_of_ne hji] at hdd'
      exact (h.described j hj hdd' q hq).congr (hothers j hji)

end Refines

namespace MappedRun

variable {f : DescFormat} {size : ℕ} {s : MappedRun} {t : RingRun}

/-- What a call leaves. -/
theorem Refines.called (h : s.Refines f t) {packet : ℕ → Packet} {r' : MappedRing} {m' : Memory}
    {a' : DescRing} (hc : s.ring.Called f packet s.mem r' m' a') (entered left : List ℕ) :
    Refines f { s with ring := r', mem := m', packet := packet, entered := entered, left := left }
      { t with ring := a', entered := entered, left := left } where
  ring := hc.refines
  placed := by
    refine ⟨?_, ?_⟩
    · show r'.desc_num ≤ 2 ^ 32
      rw [hc.touches.desc_num]
      exact h.placed.desc_num
    · show r'.tail_reg + 8 ≤ r'.desc ∨ r'.desc + r'.desc_num * sizeofAdvTxDesc ≤ r'.tail_reg
      rw [hc.touches.desc_num, hc.touches.desc, hc.touches.tail_reg]
      exact h.placed.apart
  register := hc.touches.register h.register
  entered := rfl
  left := rfl
  exited := h.exited

theorem Refines.exit (h : s.Refines f t) : Refines f s.exit t.exit :=
  ⟨h.ring, h.placed, h.register, h.entered, h.left, rfl⟩

/-- The ring over memory has the window of its model. -/
theorem Refines.window (h : s.Refines f t) : t.ring.window = s.ring.window := by
  rw [DescRing.window, MappedRing.window, h.ring.desc_num, h.ring.head, h.ring.tail]

/-- **A call on the ring over memory is the call on its model**, and stores to its descriptors and
its register only; the stores of others are no step of the model. -/
theorem Refines.step_call (h : s.Refines f t) (ht : t.Inv size) {l : MappedLabel}
    (hl : s.Admits f l) :
    (∃ m packet, l = .other m packet ∧ (s.step l).Refines f t)
      ∨ ∃ k, (∀ i len, k = .nic i len → i ∈ t.ring.window)
        ∧ (s.step l).Refines f (t.step k)
        ∧ s.ring.Touches s.mem (s.step l).ring (s.step l).mem := by
  have htail : s.ring.tail < s.ring.desc_num := by
    rw [← h.ring.tail, ← h.ring.desc_num]
    exact ht.ok.tail_lt
  have hhead : s.ring.head < s.ring.desc_num := by
    rw [← h.ring.head, ← h.ring.desc_num]
    exact ht.ok.head_lt
  cases l with
  | alloc pool =>
    obtain rfl : f = .rx := hl
    refine Or.inr ⟨.alloc pool, fun _ _ he => by simp at he, ?_⟩
    have hrel := rel_ringAllocRxBuffers h.ring h.placed htail ⟨pool.length, pool⟩
    unfold step RingRun.step
    dsimp only
    generalize s.ring.ringAllocRxBuffers s.mem _ = x at hrel ⊢
    generalize ringAllocRxBuffers t.ring _ = y at hrel ⊢
    cases hrel with
    | none => exact ⟨h.exit, .refl _ _⟩
    | @some x y hxy =>
      obtain ⟨hc, hpp⟩ := hxy
      dsimp only
      rw [h.entered, h.left, hpp]
      exact ⟨h.called hc _ _, hc.touches⟩
  | recv id =>
    obtain rfl : f = .rx := hl
    refine Or.inr ⟨.recv id s.packet, fun _ _ he => by simp at he, ?_⟩
    have hrel := rel_ringRecv h.ring h.placed hhead id s.packet
    unfold step RingRun.step
    dsimp only
    generalize MappedRing.ringRecv id s.ring s.mem s.packet = x at hrel ⊢
    generalize ringRecv id t.ring s.packet = y at hrel ⊢
    cases hrel with
    | none => exact ⟨h.exit, .refl _ _⟩
    | @some x y hxy =>
      obtain ⟨hc, -⟩ := hxy
      dsimp only
      rw [h.entered, h.left, hc.refines.pool, h.ring.pool]
      exact ⟨h.called ⟨hc.refines.setPacket _, hc.touches⟩ _ _, hc.touches⟩
  | put pkt =>
    refine Or.inr ⟨.put pkt, fun _ _ he => by simp at he, ?_⟩
    unfold step RingRun.step
    dsimp only
    rw [h.ring.pool]
    exact ⟨⟨h.ring.setPool _, ⟨h.placed.desc_num, h.placed.apart⟩, h.register, h.entered, h.left,
      h.exited⟩, rfl, rfl, rfl, fun _ _ _ _ => Agree.refl _ _ _, id⟩
  | send =>
    obtain rfl : f = .tx := hl
    refine Or.inr ⟨.send, fun _ _ he => by simp at he, ?_⟩
    have hrel := rel_ringSend h.ring h.placed htail
    unfold step RingRun.step
    dsimp only
    generalize MappedRing.ringSend s.packet s.ring s.mem = x at hrel ⊢
    generalize ringSend t.ring = y at hrel ⊢
    cases hrel with
    | none => exact ⟨h.exit, .refl _ _⟩
    | @some x y hc =>
      dsimp only
      rw [h.entered, h.left, hc.refines.pool, h.ring.pool]
      exact ⟨h.called hc _ _, hc.touches⟩
  | reclaim head =>
    obtain rfl : f = .tx := hl
    refine Or.inr ⟨.reclaim head, fun _ _ he => by simp at he, ?_⟩
    have hrel := rel_ringReclaimTxBuffers h.ring h.placed hhead head
    unfold step RingRun.step
    dsimp only
    generalize s.ring.ringReclaimTxBuffers s.mem head = x at hrel ⊢
    generalize ringReclaimTxBuffers t.ring head = y at hrel ⊢
    cases hrel with
    | none => exact ⟨h.exit, .refl _ _⟩
    | @some x y hxy =>
      obtain ⟨hc, hhead⟩ := hxy
      dsimp only
      rw [h.entered, h.left, hhead]
      exact ⟨h.called hc _ _, hc.touches⟩
  | nic i wb =>
    obtain ⟨hi, hdone⟩ := hl
    have hlt : i < s.ring.desc_num := cyclic_lt (Nat.zero_lt_of_lt hhead) hi
    have hin := s.ring.ringDesc_lt hlt
    have htouches : s.ring.Touches s.mem s.ring
        (storeBytes s.mem (s.ring.ringDesc i) sizeofAdvTxDesc wb) := by
      refine ⟨rfl, rfl, rfl, fun p k hd _ => agree_storeBytes _ _ (by omega), fun hreg => ?_⟩
      -- the register is no descriptor
      have hapart : s.ring.tail_reg + 4 ≤ s.ring.ringDesc i
          ∨ s.ring.ringDesc i + sizeofAdvTxDesc ≤ s.ring.tail_reg :=
        h.placed.apart.imp (fun h => by omega) (fun h => by omega)
      exact (loadNat_congr (agree_storeBytes _ _ hapart)).trans hreg
    refine Or.inr ⟨.nic i (load16 wb 12), fun j len he => ?_, ⟨h.ring.nic hdone, h.placed,
      htouches.register h.register, h.entered, h.left, h.exited⟩, htouches⟩
    obtain ⟨rfl, -⟩ := RingLabel.nic.inj he
    rw [h.window]
    exact hi
  | other m packet =>
    obtain ⟨hdesc, hreg, hpkts⟩ := hl
    refine Or.inl ⟨m, packet, rfl, ?_, h.placed, (loadNat_congr hreg).trans h.register,
      h.entered, h.left, h.exited⟩
    refine (h.ring.congr (fun i hi => ?_)).congr_packet hpkts
    have hin := s.ring.ringDesc_lt hi
    exact hdesc.sub hin.1 hin.2

/-- At first. -/
theorem refines_init {size : ℕ} (hs : (mappedSystem f size).init s) :
    ∃ t, (ringSystem size).init t ∧ s.Refines f t := by
  obtain ⟨hplaced, hring, hdone, hreg, hentered, hleft, hexited⟩ := hs
  refine ⟨⟨ringCreate size (fun _ => 0), [], [], false⟩, ⟨_, rfl⟩, ?_, hplaced, ?_,
    hentered.symm, hleft.symm, hexited.symm⟩
  · have hnum : s.ring.desc_num = size := by rw [hring]; rfl
    have hnone : s.ring.buffer = fun _ => none := by rw [hring]; rfl
    refine ⟨hnum.symm, by rw [hring]; rfl, by rw [hring]; rfl, by rw [hring]; rfl, hnone.symm,
      fun i hi => (hdone i (hnum ▸ hi)).symm, fun _ i _ hdd => ?_, fun i _ _ pkt hpkt => ?_⟩
    · exact absurd hdd Bool.false_ne_true
    · rw [hnone] at hpkt
      exact absurd hpkt (by simp)
  · rw [hreg, hring]
    rfl

end MappedRun

/-- **The ring over memory refines its model**, whatever the NIC writes back. -/
theorem mappedSystem_refines {f : DescFormat} {size : ℕ} (hs : 0 < size) {s : MappedRun}
    (h : (mappedSystem f size).Reachable s) :
    ∃ t, (ringSystem size).Reachable t ∧ s.Refines f t := by
  refine h.simulate (fun s hi => MappedRun.refines_init hi) (fun s l s' t ht hR hst => ?_)
  obtain ⟨-, hadmits, rfl⟩ := hst
  have hinv := RingRun.inv_of_reachable hs ht
  obtain ⟨-, -, -, hR'⟩ | ⟨k, hk, hR', -⟩ := hR.step_call hinv hadmits
  · exact Or.inl hR'
  · exact Or.inr ⟨k, t.step k, ⟨hinv.exited, hk, rfl⟩, hR'⟩

/-- **What holds of a ring in memory in every run.** -/
structure MappedSafe (f : DescFormat) (size : ℕ) (s : MappedRun) : Prop where
  /-- No missing buffer is met. -/
  exited : s.exited = false
  /-- The ring keeps its size. -/
  desc_num : s.ring.desc_num = size
  /-- The tail register holds the tail. -/
  register : loadNat s.mem s.ring.tail_reg 4 = s.ring.tail
  /-- The descriptors with a packet are those the NIC has. -/
  buffer : ∀ i, (s.ring.buffer i).isSome = true ↔ i ∈ s.ring.window
  /-- Packets leave in the order they entered, each once. -/
  fifo : s.entered = s.left ++ s.ring.window.filterMap s.ring.buffer
  /-- A descriptor the NIC has not is not done. -/
  notDone : ∀ i < size, i ∉ s.ring.window → descDone f s.mem (s.ring.ringDesc i) = false
  /-- One it has is done, or describes its packet. -/
  described : ∀ i ∈ s.ring.window, descDone f s.mem (s.ring.ringDesc i) = true
    ∨ ∃ pkt, s.ring.buffer i = some pkt
      ∧ Described f s.mem (s.ring.ringDesc i) pkt (s.packet pkt).len

/-- **A descriptor ring in memory is what driver and NIC both take it for**: in every run, whatever
the NIC wrote back and in whatever order, the tail register says which descriptors the NIC has,
every one of those that it has not written back describes its frame, no other is taken for done,
and the packets come back in the order they were given out, none lost and none twice. -/
theorem mappedSystem_safe {f : DescFormat} {size : ℕ} (hs : 2 ≤ size) {s : MappedRun}
    (h : (mappedSystem f size).Reachable s) : MappedSafe f size s := by
  obtain ⟨t, ht, hR⟩ := mappedSystem_refines (Nat.zero_lt_of_lt hs) h
  have hsafe := ringSystem_safe hs ht
  have hok := (RingRun.inv_of_reachable (Nat.zero_lt_of_lt hs) ht).ok
  have hnum : s.ring.desc_num = size := hR.ring.desc_num.symm.trans hsafe.desc_num
  have hlt : ∀ i ∈ s.ring.window, i < s.ring.desc_num := fun i hi => by
    refine cyclic_lt ?_ hi
    rw [hnum]
    exact Nat.zero_lt_of_lt hs
  refine ⟨hR.exited.symm.trans hsafe.exited, hnum, hR.register, fun i => ?_, ?_,
    fun i hi hno => ?_, fun i hi => ?_⟩
  · rw [← hR.ring.buffer, ← hR.window]
    exact hsafe.buffer i
  · rw [← hR.entered, ← hR.left, ← hR.window, ← hR.ring.buffer]
    exact hsafe.fifo
  · rw [← hR.ring.dd i (hnum ▸ hi), Bool.eq_false_iff]
    intro hdd
    exact hno (hR.window ▸ hok.dd i hdd)
  · rw [← hR.ring.dd i (hlt i hi)]
    cases hdd : t.ring.dd i with
    | true => exact Or.inl rfl
    | false =>
      have hsome := (hsafe.buffer i).mpr (hR.window ▸ hi)
      rw [hR.ring.buffer] at hsome
      obtain ⟨pkt, hpkt⟩ := Option.isSome_iff_exists.mp hsome
      exact Or.inr ⟨pkt, hpkt, hR.ring.described i (hlt i hi) hdd pkt hpkt⟩

/-- A receive ring of four descriptors, with its register after them. -/
def mappedStart : MappedRun :=
  ⟨MappedRing.ringCreate 64 0 4, fun _ => 0, fun _ => Packet.received 0 0 [], [], [], false⟩

/-- What the NIC writes back for a frame of sixty bytes. -/
def writtenBack : Memory := fun i => if i = 8 then 1 else if i = 12 then 60 else 0

/-- It is given three packets, and receives into the first. -/
def mappedReceived : MappedRun :=
  ((mappedStart.step (.alloc [0x7000, 0x9000, 0xb000])).step (.nic 0 writtenBack)).step (.recv 3)

theorem reachable_mappedReceived : (mappedSystem .rx 4).Reachable mappedReceived := by
  have hstart : (mappedSystem .rx 4).Reachable mappedStart :=
    .of_init ⟨⟨by decide, Or.inr (by decide)⟩, rfl, by decide +kernel, by decide +kernel, rfl, rfl,
      rfl⟩
  have hfull := hstart.step (show (mappedSystem .rx 4).step mappedStart
    (.alloc [0x7000, 0x9000, 0xb000]) _ from ⟨rfl, rfl, rfl⟩)
  have hdone := hfull.step (show (mappedSystem .rx 4).step _ (.nic 0 writtenBack) _ from
    ⟨by decide +kernel, ⟨by decide +kernel, by decide +kernel⟩, rfl⟩)
  exact hdone.step (show (mappedSystem .rx 4).step _ (.recv 3) _ from
    ⟨by decide +kernel, rfl, rfl⟩)

/-- The first packet is received with its length, and the second is described. -/
theorem mappedSystem_safe_mappedReceived :
    mappedReceived.left = [0x7000] ∧ (mappedReceived.packet 0x7000).len = 60
      ∧ MappedSafe .rx 4 mappedReceived :=
  ⟨by decide +kernel, by decide +kernel, mappedSystem_safe (by decide) reachable_mappedReceived⟩
