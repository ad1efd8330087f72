import Ustack.Blocks
import Ustack.MachineInt
import Ustack.MainLoop

/-!
# Packet memory in two address spaces

`packet_module_init` of `src/packet.c` once more, this time in the 64-bit
arithmetic of the machine and with the addresses processes see. The memory of the
packets is one physical region which each process maps where it likes; a process
carves its own share into blocks of `PACKET_SIZE` bytes, the frame first and the
`struct packet` behind it. Pointers mean nothing to another process, so what is
passed between processes is the physical address, and `packet_of_phys` turns it
into a pointer of the process that asks.

The definitions are in the namespace `Mapped`, since the main loop has the same
functions over packets named by physical addresses; `phys_eq_zonePackets` says
that the two agree.
-/

namespace Mapped

/-- `PACKET_SIZE`. -/
def packetSize : UInt64 := 2048

/-- `PACKET_OFFSET`. -/
def packetOffset : UInt64 := 1792

/-- The size of `struct packet`. -/
def sizeofPacket : UInt64 := 104

/-- The structure fits behind the frame. -/
theorem packetOffset_add_sizeofPacket : packetOffset + sizeofPacket ≤ packetSize := by decide

/-- `packet_of`. -/
def packetOf (data : UInt64) : UInt64 := data + packetOffset

/-- `packet_data`. -/
def packetData (pkt : UInt64) : UInt64 := pkt - packetOffset

/-- A `struct packet` as `packet_init` leaves it, and where it is. -/
structure PacketHead where
  /-- Its address in the process that initialised it. -/
  addr : UInt64
  /-- The state of the packet in a queue between processes. -/
  lfq_state : LfqState
  /-- The physical address of the frame. -/
  phys : UInt64
  /-- The length of the frame. -/
  len : UInt16
  /-- The size of the block. -/
  size : UInt16
  /-- The process the packet belongs to. -/
  id : Int32

/-- `packet_init`. -/
def packetInit (start phys : UInt64) (id : Int32) : PacketHead where
  addr := packetOf start
  lfq_state := .end_
  phys := phys
  len := 0
  size := packetSize.toUInt16
  id := id

/-- `struct packet_pool`. -/
structure PacketPool where
  /-- The number of packets. -/
  num : UInt64
  /-- The packets. -/
  list : List PacketHead

/-- `packet_pool_init`. -/
def packetPoolInit : PacketPool := ⟨0, []⟩

/-- `packet_pool_put`. -/
def packetPoolPut (pp : PacketPool) (pkt : PacketHead) : PacketPool :=
  ⟨pp.num + 1, pp.list ++ [pkt]⟩

/-- `struct packet_zone`. -/
structure PacketZone where
  /-- The address of the first packet of all processes. -/
  start_all : UInt64
  /-- Its physical address. -/
  phys_all : UInt64
  /-- The address of the first packet of this process. -/
  start : UInt64
  /-- Its physical address. -/
  phys : UInt64
  /-- The bytes of this process. -/
  size : UInt64
  /-- The process. -/
  id : Int32
  /-- The free packets. -/
  free_packet_pool : PacketPool

/-- The loop of `pool_add_packets`, with the turns left to take. -/
def poolAddLoop (id : Int32) : ℕ → UInt64 → UInt64 → PacketPool → PacketPool
  | 0, _, _, pool => pool
  | i + 1, start, phys, pool =>
    poolAddLoop id i (start + packetSize) (phys + packetSize)
      (packetPoolPut pool (packetInit start phys id))

/-- `pool_add_packets`. -/
def poolAddPackets (zone : PacketZone) (pool : PacketPool) : PacketPool :=
  poolAddLoop zone.id (zone.size / packetSize).toNat zone.start zone.phys pool

/-- `packet_zone_init`. -/
def packetZoneInit (start_all phys_all start phys size : UInt64) (id : Int32) : PacketZone :=
  let zone : PacketZone := ⟨start_all, phys_all, start, phys, size, id, packetPoolInit⟩
  { zone with free_packet_pool := poolAddPackets zone zone.free_packet_pool }

/-- `packet_module_init`. The answer of `MALLOC` for the zone is not looked at: without memory
the process ends there. -/
def packetModuleInit (start phys size : UInt64) (nproc id : Int32) : Option PacketZone :=
  if nproc = 0 ∨ size ≤ 0 ∨ start ≤ 0 ∨ phys ≤ 0 then none
  else
    let total_num := size / packetSize
    let num := total_num / sizeOfInt nproc
    let size := num * packetSize
    let phys_all := phys
    let start_all := start
    let start := start + size * sizeOfInt id
    let phys := phys + size * sizeOfInt id
    some (packetZoneInit start_all phys_all start phys size id)

/-- `packet_of_phys`. -/
def packetOfPhys (z : PacketZone) (phys : UInt64) : UInt64 :=
  packetOf (z.start_all + (phys - z.phys_all))

/-! ## What the loop adds -/

/-- The packets of a number of blocks, one after the other. -/
def packetsFrom (id : Int32) (start phys : UInt64) (num : ℕ) : List PacketHead :=
  (List.range num).map (fun i =>
    packetInit (start + UInt64.ofNat i * packetSize) (phys + UInt64.ofNat i * packetSize) id)

theorem packetsFrom_succ (id : Int32) (start phys : UInt64) (num : ℕ) :
    packetsFrom id start phys (num + 1)
      = packetInit start phys id
        :: packetsFrom id (start + packetSize) (phys + packetSize) num := by
  have hfirst : ∀ a : UInt64, a + UInt64.ofNat 0 * packetSize = a := fun a => by simp
  have hnext : ∀ (a : UInt64) (i : ℕ), a + UInt64.ofNat (i + 1) * packetSize
      = a + packetSize + UInt64.ofNat i * packetSize := by
    intro a i
    rw [UInt64.ofNat_add]
    generalize packetSize = n
    grind
  unfold packetsFrom
  rw [List.range_succ_eq_map, List.map_cons, List.map_map, hfirst, hfirst]
  refine congrArg _ (List.map_congr_left (fun i _ => ?_))
  rw [← hnext, ← hnext]
  rfl

theorem poolAddLoop_eq (id : Int32) (num : ℕ) : ∀ (start phys : UInt64) (pool : PacketPool),
    poolAddLoop id num start phys pool
      = ⟨pool.num + UInt64.ofNat num, pool.list ++ packetsFrom id start phys num⟩ := by
  induction num with
  | zero =>
    intro start phys pool
    show pool = ⟨pool.num + 0, pool.list ++ []⟩
    rw [UInt64.add_zero, List.append_nil]
  | succ num ih =>
    intro start phys pool
    have hcount : pool.num + 1 + UInt64.ofNat num = pool.num + UInt64.ofNat (num + 1) := by
      rw [UInt64.ofNat_add, UInt64.add_assoc, UInt64.add_comm 1]
      rfl
    rw [poolAddLoop, ih, packetsFrom_succ, packetPoolPut, List.append_assoc,
      List.singleton_append, hcount]

/-! ## Where the packets are -/

/-- The number of packets of each of `n` processes. -/
def zoneNum (size : UInt64) (n : ℕ) : ℕ := size.toNat / 2048 / n

/-- The offset of a packet's block in the memory: the block `i` of process `a`. -/
def blockOffset (num a i : ℕ) : ℕ := (a * num + i) * 2048

/-- The blocks of all processes are within the memory. -/
theorem blockOffset_add_le {size : UInt64} {n a i : ℕ} (ha : a < n) (hi : i < zoneNum size n) :
    blockOffset (zoneNum size n) a i + 2048 ≤ size.toNat := by
  have hlt : a * zoneNum size n + i < n * zoneNum size n := grid_lt ha hi
  have hblock := @mul_add_le_mul 2048 _ _ hlt
  have hall : n * zoneNum size n ≤ size.toNat / 2048 := Nat.mul_div_le _ _
  have hsize : size.toNat / 2048 * 2048 ≤ size.toNat := Nat.div_mul_le_self _ _
  exact hblock.trans ((Nat.mul_le_mul_right _ hall).trans hsize)

/-- Different blocks do not overlap. -/
theorem chunksApart_blockOffset {num a b i j : ℕ} (hi : i < num) (hj : j < num)
    (h : a ≠ b ∨ i ≠ j) : chunksApart 2048 (blockOffset num a i) (blockOffset num b j) := by
  refine chunksApart_mul (fun he => ?_)
  obtain ⟨hab, hij⟩ := grid_inj hi hj he
  exact h.elim (fun hne => hne hab) (fun hne => hne hij)

/-- A zone knows where the memory starts. -/
theorem packetModuleInit_all {start phys size : UInt64} {nproc id : Int32} {z : PacketZone}
    (h : packetModuleInit start phys size nproc id = some z) :
    z.start_all = start ∧ z.phys_all = phys := by
  unfold packetModuleInit at h
  split at h
  · exact absurd h (by simp)
  · obtain rfl := Option.some.inj h
    exact ⟨rfl, rfl⟩

/-- **What `packet_module_init` makes**: its packets are at their offsets, in both address
spaces. -/
theorem packetModuleInit_spec {start phys size : UInt64} {nproc id : Int32} {z : PacketZone}
    {n a : ℕ} (h : packetModuleInit start phys size nproc id = some z) (hn : IntIs nproc n)
    (ha : IntIs id a) :
    z.free_packet_pool = ⟨UInt64.ofNat (zoneNum size n),
      (List.range (zoneNum size n)).map (fun i =>
        packetInit (start + UInt64.ofNat (blockOffset (zoneNum size n) a i))
          (phys + UInt64.ofNat (blockOffset (zoneNum size n) a i)) id)⟩ := by
  unfold packetModuleInit at h
  split at h
  · exact absurd h (by simp)
  · obtain rfl := Option.some.inj h
    set num := size / packetSize / sizeOfInt nproc with hnum
    have hnumNat : num.toNat = zoneNum size n := by
      rw [hnum, UInt64.toNat_div, UInt64.toNat_div, hn.toNat_sizeOfInt]
      rfl
    have hid : sizeOfInt id = UInt64.ofNat a := by
      rw [← UInt64.toNat_inj, ha.toNat_sizeOfInt, UInt64.toNat_ofNat', Nat.mod_eq_of_lt]
      exact lt_of_le_of_lt ha.le_intMax (by decide)
    -- the share of a process is divided again by what it was multiplied with
    have hdiv : (num * packetSize / packetSize).toNat = zoneNum size n := by
      have hle : zoneNum size n * 2048 ≤ size.toNat :=
        (Nat.mul_le_mul_right _ (Nat.div_le_self _ _)).trans (Nat.div_mul_le_self _ _)
      have hlt := size.toNat_lt
      rw [UInt64.toNat_div, UInt64.toNat_mul, hnumNat,
        show packetSize.toNat = 2048 from rfl, Nat.mod_eq_of_lt (by omega),
        Nat.mul_div_cancel _ (by decide)]
    have hnum64 : num = UInt64.ofNat (zoneNum size n) := by
      rw [← hnumNat, UInt64.ofNat_toNat]
    have hblock : ∀ (p : UInt64) (i : ℕ),
        p + num * packetSize * UInt64.ofNat a + UInt64.ofNat i * packetSize
          = p + UInt64.ofNat (blockOffset (zoneNum size n) a i) := by
      intro p i
      rw [blockOffset, UInt64.ofNat_mul, UInt64.ofNat_add, UInt64.ofNat_mul, ← hnum64,
        show UInt64.ofNat 2048 = packetSize from rfl]
      generalize packetSize = k
      generalize UInt64.ofNat a = x
      generalize UInt64.ofNat i = y
      grind
    show poolAddLoop id (num * packetSize / packetSize).toNat
      (start + num * packetSize * sizeOfInt id) (phys + num * packetSize * sizeOfInt id)
      packetPoolInit = _
    rw [poolAddLoop_eq, hdiv, hid, packetPoolInit, UInt64.zero_add, List.nil_append, packetsFrom]
    simp only [hblock]

/-! ## One memory and its processes -/

/-- The memory of the packets and where each process maps it. -/
structure PacketMemory where
  /-- Its physical address. -/
  phys : UInt64
  /-- Its size. -/
  size : UInt64
  /-- The number of processes. -/
  nproc : Int32
  /-- Its address in each process. -/
  start : Int32 → UInt64

/-- The process ids. -/
def IsProcess (nproc id : Int32) : Prop := 0 ≤ id ∧ id < nproc

/-- A process id is a number below the number of processes. -/
theorem IsProcess.exists_intIs {nproc id : Int32} (h : IsProcess nproc id) :
    ∃ n a, IntIs nproc n ∧ IntIs id a ∧ a < n := by
  have hid := IntIs.of_nonneg h.1
  have hnproc : 0 ≤ nproc := Int32.le_of_lt (Int32.lt_of_le_of_lt h.1 h.2)
  have hn := IntIs.of_nonneg hnproc
  exact ⟨_, _, hn, hid, (hid.lt_iff hn).mp h.2⟩

/-- Where there is a process there is more than none. -/
theorem IsProcess.nproc_ne_zero {nproc id : Int32} (h : IsProcess nproc id) : nproc ≠ 0 := by
  intro h0
  have hlt := Int32.lt_of_le_of_lt h.1 h.2
  rw [h0] at hlt
  exact absurd hlt (by decide)

namespace PacketMemory

variable {M : PacketMemory} {a b : Int32} {pkt pkt' : PacketHead}

/-- What `packet_module_init` returns in a process. -/
def zone (M : PacketMemory) (a : Int32) : Option PacketZone :=
  packetModuleInit (M.start a) M.phys M.size M.nproc a

/-- A process created a packet. -/
def HasPacket (M : PacketMemory) (a : Int32) (pkt : PacketHead) : Prop :=
  IsProcess M.nproc a ∧ ∃ z, M.zone a = some z ∧ pkt ∈ z.free_packet_pool.list

/-- The offset in the memory of the block of a packet of a process. -/
def offset (M : PacketMemory) (a : Int32) (pkt : PacketHead) : ℕ :=
  (packetData pkt.addr - M.start a).toNat

/-- The address in one process of what another has at an address. -/
def translate (M : PacketMemory) (a b : Int32) (addr : UInt64) : UInt64 :=
  M.start b + (addr - M.start a)

/-- Neither the memory nor a mapping of it goes past the end of its address space. -/
structure NoWrap (M : PacketMemory) : Prop where
  /-- The memory. -/
  phys : M.phys.toNat + M.size.toNat ≤ 2 ^ 64
  /-- The mappings. -/
  start : ∀ a, IsProcess M.nproc a → (M.start a).toNat + M.size.toNat ≤ 2 ^ 64

/-- **The packet memory is partitioned, and physical addresses translate back.** -/
structure Partitioned (M : PacketMemory) : Prop where
  /-- Every process gets its zone. -/
  zone : ∀ a, IsProcess M.nproc a → M.start a ≠ 0 → M.phys ≠ 0 → M.size ≠ 0 →
    (M.zone a).isSome = true
  /-- A block is inside the mapping of its process. -/
  inside : ∀ a pkt, M.HasPacket a pkt → (M.start a).toNat ≤ (packetData pkt.addr).toNat
    ∧ (packetData pkt.addr).toNat + 2048 ≤ (M.start a).toNat + M.size.toNat
  /-- It is inside the memory. -/
  inside_phys : ∀ a pkt, M.HasPacket a pkt → M.phys.toNat ≤ pkt.phys.toNat
    ∧ pkt.phys.toNat + 2048 ≤ M.phys.toNat + M.size.toNat
  /-- It is at the same offset in both. -/
  phys : ∀ a pkt, M.HasPacket a pkt → pkt.phys.toNat = M.phys.toNat + M.offset a pkt
  /-- The blocks of two processes do not overlap. -/
  apart : ∀ a b pkt pkt', M.HasPacket a pkt → M.HasPacket b pkt' → a ≠ b →
    chunksApart 2048 (M.offset a pkt) (M.offset b pkt')
  /-- Neither do those of one process. -/
  apart_self : ∀ a z, IsProcess M.nproc a → M.zone a = some z →
    z.free_packet_pool.list.Pairwise
      (fun pkt pkt' => chunksApart 2048 (M.offset a pkt) (M.offset a pkt'))
  /-- A process finds the packet of a physical address where it maps it. -/
  packet_of_phys : ∀ a b pkt z, M.HasPacket a pkt → IsProcess M.nproc b → M.zone b = some z →
    packetOfPhys z pkt.phys = M.translate a b pkt.addr
  /-- So what is read from a queue are the packets that were sent. -/
  received : ∀ b z, IsProcess M.nproc b → M.zone b = some z →
    ∀ size (l : LfqLink UInt64), 1 ≤ size → (lfqSystem UInt64 size).Reachable l →
      ∀ pkts : List (Int32 × PacketHead), (∀ x ∈ pkts, M.HasPacket x.1 x.2) →
        l.sent = pkts.map (fun x => x.2.phys) →
        l.lhead.map (packetOfPhys z)
          = (pkts.map (fun x => M.translate x.1 b x.2.addr)).take l.lhead.length

theorem packetData_packetOf (data : UInt64) : packetData (packetOf data) = data := by
  unfold packetData packetOf
  generalize packetOffset = k
  grind

/-- The block of a packet: its place, and the packet there. -/
theorem HasPacket.exists_block (h : M.HasPacket a pkt) :
    ∃ n k i, IntIs M.nproc n ∧ IntIs a k ∧ k < n ∧ i < zoneNum M.size n
      ∧ pkt = packetInit (M.start a + UInt64.ofNat (blockOffset (zoneNum M.size n) k i))
        (M.phys + UInt64.ofNat (blockOffset (zoneNum M.size n) k i)) a := by
  obtain ⟨hproc, z, hz, hmem⟩ := h
  obtain ⟨n, k, hn, ha, hlt⟩ := hproc.exists_intIs
  have hpool := packetModuleInit_spec hz hn ha
  rw [hpool] at hmem
  obtain ⟨i, hi, rfl⟩ := List.mem_map.mp hmem
  exact ⟨n, k, i, hn, ha, hlt, List.mem_range.mp hi, rfl⟩

theorem toNat_ofNat_of_le {size : UInt64} {off : ℕ} (h : off + 2048 ≤ size.toNat) :
    (UInt64.ofNat off).toNat = off := by
  have hlt := size.toNat_lt
  rw [UInt64.toNat_ofNat', Nat.mod_eq_of_lt (by omega)]

/-- A packet made at an offset is at that offset. -/
theorem offset_packetInit {off : ℕ} (h : off + 2048 ≤ M.size.toNat) (phys : UInt64) (id : Int32) :
    M.offset a (packetInit (M.start a + UInt64.ofNat off) phys id) = off := by
  show (packetData (packetOf (M.start a + UInt64.ofNat off)) - M.start a).toNat = off
  rw [packetData_packetOf, address_sub_start, toNat_ofNat_of_le h]

/-- An address in a region that does not wrap. -/
theorem toNat_add_ofNat {start size : UInt64} {off : ℕ} (h : off + 2048 ≤ size.toNat)
    (hwrap : start.toNat + size.toNat ≤ 2 ^ 64) :
    (start + UInt64.ofNat off).toNat = start.toNat + off := by
  rw [UInt64.toNat_add, toNat_ofNat_of_le h, Nat.mod_eq_of_lt (by omega)]

/-- **A process finds the packet of a physical address where it maps it.** -/
theorem HasPacket.packetOfPhys_eq (h : M.HasPacket a pkt) {z : PacketZone}
    (hz : M.zone b = some z) :
    packetOfPhys z pkt.phys = M.translate a b pkt.addr := by
  obtain ⟨n, k, i, -, -, -, -, rfl⟩ := h.exists_block
  obtain ⟨hstart, hphys⟩ := packetModuleInit_all hz
  generalize blockOffset (zoneNum M.size n) k i = off
  show packetOf (z.start_all + (M.phys + UInt64.ofNat off - z.phys_all))
    = M.start b + (packetOf (M.start a + UInt64.ofNat off) - M.start a)
  rw [hstart, hphys, address_sub_start, packetOf, packetOf]
  generalize packetOffset = k
  grind

/-- A process that is given memory gets a zone. -/
theorem zone_isSome (ha : IsProcess M.nproc a) (hstart : M.start a ≠ 0) (hphys : M.phys ≠ 0)
    (hsize : M.size ≠ 0) : (M.zone a).isSome = true := by
  have hn := ha.nproc_ne_zero
  have hle : ∀ x : UInt64, x ≠ 0 → ¬ x ≤ 0 := fun x hx h0 =>
    hx (UInt64.le_antisymm h0 (UInt64.le_iff_toNat_le.mpr (Nat.zero_le _)))
  rw [zone, packetModuleInit,
    if_neg (by simp only [hn, hle _ hstart, hle _ hphys, hle _ hsize, or_self, not_false_iff])]
  rfl

/-- **What a process reads from a queue are the packets that were sent**, where it maps them. -/
theorem lhead_packetOfPhys {z : PacketZone} (hz : M.zone b = some z) {size : ℕ}
    {l : LfqLink UInt64} (hs : 1 ≤ size) (hl : (lfqSystem UInt64 size).Reachable l)
    {pkts : List (Int32 × PacketHead)} (hpkts : ∀ x ∈ pkts, M.HasPacket x.1 x.2)
    (hsent : l.sent = pkts.map (fun x => x.2.phys)) :
    l.lhead.map (packetOfPhys z)
      = (pkts.map (fun x => M.translate x.1 b x.2.addr)).take l.lhead.length := by
  obtain ⟨T, W, R, hinv⟩ := LfqLink.inv_of_reachable hs hl
  -- what was read is what was sent first
  have hlhead : l.lhead = l.sent.take l.lhead.length := by
    rw [hinv.lhead_eq, List.length_take]
    exact List.take_eq_take_min
  have hmap : l.sent.map (packetOfPhys z)
      = pkts.map (fun x => M.translate x.1 b x.2.addr) := by
    rw [hsent, List.map_map]
    exact List.map_congr_left (fun x hx => (hpkts x hx).packetOfPhys_eq hz)
  calc l.lhead.map (packetOfPhys z)
      = (l.sent.take l.lhead.length).map (packetOfPhys z) := congrArg _ hlhead
    _ = (l.sent.map (packetOfPhys z)).take l.lhead.length := List.map_take
    _ = _ := by rw [hmap]

end PacketMemory

/-- **The packet memory is partitioned**, if no address space ends within it. -/
theorem packetMemory_partitioned (M : PacketMemory) (hwrap : M.NoWrap) : M.Partitioned where
  zone _ ha hstart hphys hsize := PacketMemory.zone_isSome ha hstart hphys hsize
  inside a pkt h := by
    obtain ⟨n, k, i, -, -, hk, hi, rfl⟩ := h.exists_block
    have hle := blockOffset_add_le hk hi
    have hstart := hwrap.start a h.1
    show _ ≤ (packetData (packetOf _)).toNat ∧ (packetData (packetOf _)).toNat + 2048 ≤ _
    rw [PacketMemory.packetData_packetOf, PacketMemory.toNat_add_ofNat hle hstart]
    omega
  inside_phys a pkt h := by
    obtain ⟨n, k, i, -, -, hk, hi, rfl⟩ := h.exists_block
    have hle := blockOffset_add_le hk hi
    show _ ≤ (M.phys + _).toNat ∧ (M.phys + _).toNat + 2048 ≤ _
    rw [PacketMemory.toNat_add_ofNat hle hwrap.phys]
    omega
  phys a pkt h := by
    obtain ⟨n, k, i, -, -, hk, hi, rfl⟩ := h.exists_block
    have hle := blockOffset_add_le hk hi
    rw [PacketMemory.offset_packetInit hle]
    exact PacketMemory.toNat_add_ofNat hle hwrap.phys
  apart a b pkt pkt' h h' hne := by
    obtain ⟨n, k, i, hn, ha, hk, hi, rfl⟩ := h.exists_block
    obtain ⟨n', k', i', hn', hb, hk', hi', rfl⟩ := h'.exists_block
    obtain rfl : n = n' := Int.ofNat_inj.mp (hn.symm.trans hn')
    have hkk : k ≠ k' := fun he => hne (ha.inj (he ▸ hb))
    rw [PacketMemory.offset_packetInit (blockOffset_add_le hk hi),
      PacketMemory.offset_packetInit (blockOffset_add_le hk' hi')]
    exact chunksApart_blockOffset hi hi' (Or.inl hkk)
  apart_self a z ha hz := by
    obtain ⟨n, k, hn, hk, hlt⟩ := ha.exists_intIs
    have hpool := packetModuleInit_spec hz hn hk
    rw [hpool]
    refine List.pairwise_map.mpr (List.Pairwise.imp_of_mem ?_ List.nodup_range)
    intro i j hi hj hij
    rw [List.mem_range] at hi hj
    rw [PacketMemory.offset_packetInit (blockOffset_add_le hlt hi),
      PacketMemory.offset_packetInit (blockOffset_add_le hlt hj)]
    exact chunksApart_blockOffset hi hj (Or.inr hij)
  packet_of_phys a b pkt z h _ hz := h.packetOfPhys_eq hz
  received _ _ _ hz _ _ hs hl _ hpkts hsent :=
    PacketMemory.lhead_packetOfPhys hz hs hl hpkts hsent

/-- A memory of four blocks that two processes map. -/
def twoMappings : PacketMemory where
  phys := 0x100000
  size := 8192
  nproc := 2
  start a := if a = 0 then 0x7f0000000000 else 0x7e0000000000

theorem twoMappings_noWrap : twoMappings.NoWrap where
  phys := by decide
  start a _ := by
    show (if a = 0 then (0x7f0000000000 : UInt64) else 0x7e0000000000).toNat + 8192 ≤ 2 ^ 64
    split <;> decide

/-- The second packet of the first process, as the second process finds it. -/
theorem packetMemory_partitioned_two :
    twoMappings.Partitioned
      ∧ ((twoMappings.zone 0).map (fun z => z.free_packet_pool.list.map PacketHead.addr))
        = some [0x7f0000000700, 0x7f0000000f00]
      ∧ ((twoMappings.zone 1).map (fun z => packetOfPhys z 0x100800)) = some 0x7e0000000f00 :=
  ⟨packetMemory_partitioned twoMappings twoMappings_noWrap, by decide +kernel, by decide +kernel⟩

/-! ## The packets of the main loop -/

/-- **The packets of a process are those of the main loop**, named by their physical
addresses, if the memory does not wrap. -/
theorem PacketMemory.phys_eq_zonePackets {M : PacketMemory}
    (hwrap : M.phys.toNat + M.size.toNat ≤ 2 ^ 64) {a : Int32} {z : PacketZone} {n k : ℕ}
    (hn : IntIs M.nproc n) (ha : IntIs a k) (hk : k < n) (hz : M.zone a = some z) :
    z.free_packet_pool.list.map (fun pkt => pkt.phys.toNat)
      = zonePackets M.phys.toNat M.size.toNat n k := by
  have hpool := packetModuleInit_spec hz hn ha
  rw [hpool, zonePackets, List.map_map]
  refine List.map_congr_left (fun i hi => ?_)
  have hle := blockOffset_add_le hk (List.mem_range.mp hi)
  show (M.phys + _).toNat = _
  rw [PacketMemory.toNat_add_ofNat hle hwrap, blockOffset]
  show M.phys.toNat + (k * zoneNum M.size n + i) * 2048
    = M.phys.toNat + zoneNum M.size n * 2048 * k + i * 2048
  ring

end Mapped
