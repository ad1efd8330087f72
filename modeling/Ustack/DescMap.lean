import Ustack.Driver
import Ustack.Ukmem

/-!
# Where user space looks for the descriptor rings

`driver_open` maps the descriptor memory of all adapters as one piece, and computes the
addresses of a process's rings in it from the number of queues: `adapter_queue_regs_desc_addr`
takes the tx rings of an adapter before its rx rings, as many as there are queues. The kernel
lays the piece out from the rings in its table, as many as were registered.

The two layouts are one as long as an adapter sets up its rings once. An adapter that is opened
again has the rings of its first opening before its own, so user space gets, from the second time
on, rings that are not in use (`reopened_maps_stale_ring`). So has an adapter that is not granted
MSI-X, whose rings the first opening sets up twice.
-/

/-! ## The layout of user space -/

/-- `DESC_BLOCK_SIZE`. -/
def descBlockSize : ℕ := 4096

/-- `REG_BLOCK_SIZE`. -/
def regBlockSize : ℕ := 524288

/-- `sizeof(union e1000_adv_tx_desc)`. -/
def sizeofAdvTxDesc : ℕ := 16

/-- `E1000_RDT`. -/
def e1000Rdt (n : ℕ) : ℕ := if n < 4 then 0x02818 + n * 0x100 else 0x0C018 + n * 0x40

/-- `E1000_TDT`. -/
def e1000Tdt (n : ℕ) : ℕ := if n < 4 then 0x03818 + n * 0x100 else 0x0E018 + n * 0x40

/-- `struct adapter`, as far as its addresses go. -/
structure AdapterAddrs where
  /-- Its index. -/
  id : ℕ
  /-- The queue of this process. -/
  queue_idx : ℕ
  /-- The number of queues. -/
  queue_num : ℕ
  /-- The number of descriptors of a ring. -/
  desc_num : ℕ
  /-- The address of its registers. -/
  regs_addr : ℕ
  /-- The address of its rings. -/
  desc_addr : ℕ

/-- `adapter_queue_regs_desc_addr`: the addresses of a tail register and of a ring. -/
def adapterQueueRegsDescAddr (a : AdapterAddrs) (is_rx : Bool) : ℕ × ℕ :=
  let desc_size := sizeofAdvTxDesc * a.desc_num
  if is_rx then
    (a.regs_addr + e1000Rdt a.queue_idx, a.desc_addr + (a.queue_num + a.queue_idx) * desc_size)
  else (a.regs_addr + e1000Tdt a.queue_idx, a.desc_addr + a.queue_idx * desc_size)

/-- `struct driver`, as far as its addresses go. -/
structure DriverAddrs where
  /-- The number of adapters. -/
  adapter_num : ℕ
  /-- The number of queues. -/
  ring_num : ℕ
  /-- The bytes of the mapping of the rings. -/
  desc_total_size : ℕ
  /-- The bytes of the mapping of the registers. -/
  regs_total_size : ℕ
  /-- The adapters. -/
  adapters : List AdapterAddrs

/-- The loop of `driver_open`, with the number of adapters left. -/
def driverOpenLoop (id ring_num : ℕ) : ℕ → ℕ → ℕ → ℕ → List AdapterAddrs
  | 0, _, _, _ => []
  | n + 1, i, regs, desc =>
    ⟨i, id, ring_num, descNum, regs, desc⟩
      :: driverOpenLoop id ring_num n (i + 1) (regs + regBlockSize)
        (desc + descBlockSize * ring_num * 2)

/-- `driver_open` in a process, with what it reads from the kernel and the addresses of its
two mappings. The numbers of adapters and of queues have eight bits. -/
def driverOpen (id : ℕ) (t : ℕ × ℕ) (regs_addr desc_addr : ℕ) : DriverAddrs :=
  let adapter_num := t.1 % 256
  let ring_num := t.2 % 256
  { adapter_num := adapter_num
    ring_num := ring_num
    desc_total_size := descBlockSize * adapter_num * ring_num * 2
    regs_total_size := regBlockSize * adapter_num
    adapters := driverOpenLoop id ring_num adapter_num 0 regs_addr desc_addr }

theorem getElem?_driverOpenLoop (id ring_num : ℕ) {n k : ℕ} (hk : k < n) (i regs desc : ℕ) :
    (driverOpenLoop id ring_num n i regs desc)[k]?
      = some ⟨i + k, id, ring_num, descNum, regs + k * regBlockSize,
          desc + k * (descBlockSize * ring_num * 2)⟩ := by
  induction n generalizing k i regs desc with
  | zero => exact absurd hk (Nat.not_lt_zero k)
  | succ n ih =>
    rw [driverOpenLoop]
    cases k with
    | zero => simp
    | succ k =>
      rw [List.getElem?_cons_succ, ih (Nat.lt_of_succ_lt_succ hk)]
      congr 2 <;> ring

/-- The flag of a direction. -/
def descFlag (is_rx : Bool) : DescFlag := if is_rx then .rx else .tx

/-- **The mapping holds the rings in use**: for every adapter and every queue, what the kernel
maps where the process of that queue looks is the memory of the adapter's ring. -/
def Host.MapsRings (h : Host) : Prop :=
  ∀ (i q : ℕ) (m : AdapterMem) (is_rx : Bool) (regs desc : ℕ),
    h.ukmmap.adapter[i]? = some m → q < h.ukmmap.queue_num →
    ∃ a off, (driverOpen q (ukmemRead h.ukmmap) regs desc).adapters[i]? = some a
      ∧ (adapterQueueRegsDescAddr a is_rx).2 = desc + off
      ∧ (off, (h.igb m.adapter_addr).ring (descFlag is_rx) q >>> pageShift)
        ∈ ukmemMmapDesc h.ukmmap

/-! ## Positions in the table -/

/-- A position in a concatenation of blocks, after blocks of one length. -/
theorem getElem?_flatMap_append {α β : Type*} {f : α → List β} {w : ℕ} {l₁ l₂ : List α} {a : α}
    (hw : ∀ b ∈ l₁, (f b).length = w) (r : ℕ) :
    ((l₁ ++ a :: l₂).flatMap f)[l₁.length * w + r]? = (f a ++ l₂.flatMap f)[r]? := by
  induction l₁ with
  | nil => simp
  | cons b l₁ ih =>
    obtain ⟨hb, hrest⟩ := List.forall_mem_cons.mp hw
    have hpos : (b :: l₁).length * w + r = (f b).length + (l₁.length * w + r) := by
      rw [hb, List.length_cons]
      ring
    rw [List.cons_append, List.flatMap_cons, hpos,
      List.getElem?_append_right (Nat.le_add_right _ _), Nat.add_sub_cancel_left, ih hrest]

namespace Host

variable {s : IgbSetup} {h : Host}

/-- **Where a ring is in the table**, if the adapters before its own have one ring of each kind for
every queue. -/
theorem rings_getElem? {l₁ l₂ : List AdapterMem} {m : AdapterMem}
    (hl : h.ukmmap.adapter = l₁ ++ m :: l₂)
    (hw : ∀ b ∈ l₁, ∀ flag, (b.desc flag).length = s.num) (is_rx : Bool) {k : ℕ}
    (hk : k < (m.desc (descFlag is_rx)).length) :
    h.ukmmap.rings[l₁.length * (s.num + s.num) + ((if is_rx then m.tx_desc_num else 0) + k)]?
      = (m.desc (descFlag is_rx))[k]? := by
  have hblocks : ∀ b ∈ l₁, (b.tx_desc ++ b.rx_desc).length = s.num + s.num := fun b hb => by
    rw [List.length_append]
    exact congrArg₂ (· + ·) (hw b hb .tx) (hw b hb .rx)
  rw [Ukmem.rings, hl, getElem?_flatMap_append hblocks, List.append_assoc]
  cases is_rx with
  | false =>
    show (m.tx_desc ++ _)[0 + k]? = _
    rw [Nat.zero_add]
    exact List.getElem?_append_left hk
  | true =>
    show (m.tx_desc ++ (m.rx_desc ++ _))[m.tx_desc.length + k]? = _
    rw [List.getElem?_append_right (Nat.le_add_right _ _), Nat.add_sub_cancel_left]
    exact List.getElem?_append_left hk

/-! ## One layout -/

/-- The block at which a process looks for the ring of an adapter. -/
def block (num i : ℕ) (is_rx : Bool) (q : ℕ) : ℕ :=
  i * (num + num) + ((if is_rx then num else 0) + q)

/-- **Where a process looks.** -/
theorem driverOpen_offset {i n num q : ℕ} (hi : i < n) (hn : n ≤ maxAdapterNum)
    (hnum : num ≤ maxDescNum) (is_rx : Bool) (regs desc : ℕ) :
    ∃ a, (driverOpen q (n, num) regs desc).adapters[i]? = some a
      ∧ (adapterQueueRegsDescAddr a is_rx).2 = desc + block num i is_rx q * pageSize := by
  have hn' : n % 256 = n := Nat.mod_eq_of_lt (lt_of_le_of_lt hn (by decide))
  have hnum' : num % 256 = num := Nat.mod_eq_of_lt (lt_of_le_of_lt hnum (by decide))
  refine ⟨_, getElem?_driverOpenLoop _ _ (hn'.symm ▸ hi) 0 regs desc, ?_⟩
  rw [hnum']
  cases is_rx
  · simp only [adapterQueueRegsDescAddr, block, descBlockSize, sizeofAdvTxDesc, descNum, pageSize,
      Bool.false_eq_true, if_false]
    ring
  · simp only [adapterQueueRegsDescAddr, block, descBlockSize, sizeofAdvTxDesc, descNum, pageSize,
      if_true]
    ring

/-- **The mapping holds the rings in use if every ring in use is at its block.** -/
theorem mapsRings_iff (hs : h.Sound s) (hbounds : h.ukmmap.InBounds) :
    h.MapsRings ↔ ∀ (i q : ℕ) (m : AdapterMem) (is_rx : Bool), h.ukmmap.adapter[i]? = some m →
      q < s.num → (h.ukmmap.rings.map (· >>> pageShift))[block s.num i is_rx q]?
        = some ((h.igb m.adapter_addr).ring (descFlag is_rx) q >>> pageShift) := by
  have hnum : ∀ {i : ℕ} {m : AdapterMem}, h.ukmmap.adapter[i]? = some m →
      h.ukmmap.queue_num = s.num := fun hm =>
    hs.queue_num (List.ne_nil_of_mem (List.mem_of_getElem? hm))
  have hlen : h.ukmmap.desc_pages * pageSize = pageSize := by rw [hs.desc_pages, Nat.one_mul]
  constructor
  · intro hmaps i q m is_rx hm hq
    obtain ⟨a, off, ha, hoff, hmem⟩ := hmaps i q m is_rx 0 0 hm (hnum hm ▸ hq)
    obtain ⟨a', ha', hoff'⟩ := driverOpen_offset (q := q)
      (List.getElem?_eq_some_iff.mp hm).1 hbounds.1 s.num_le is_rx 0 0
    rw [ukmemRead, hnum hm] at ha
    obtain rfl := Option.some.inj (ha.symm.trans ha')
    obtain ⟨k, p, hk, hkoff, hp⟩ := mem_ukmemMmapDesc.mp hmem
    have hblock : k = block s.num i is_rx q := by
      rw [hlen] at hkoff
      rw [hoff', ← hkoff] at hoff
      exact (Nat.eq_of_mul_eq_mul_right (by decide) (Nat.add_left_cancel hoff)).symm
    rw [List.getElem?_map, ← hblock, hk, Option.map_some, hp]
  · intro hat i q m is_rx regs desc hm hq
    obtain ⟨a, ha, hoff⟩ := driverOpen_offset (q := q)
      (List.getElem?_eq_some_iff.mp hm).1 hbounds.1 s.num_le is_rx regs desc
    refine ⟨a, _, ?_, hoff, mem_ukmemMmapDesc.mpr ?_⟩
    · rw [ukmemRead, hnum hm]
      exact ha
    · have hpage := hat i q m is_rx hm (hnum hm ▸ hq)
      rw [List.getElem?_map, Option.map_eq_some_iff] at hpage
      obtain ⟨p, hk, hp⟩ := hpage
      exact ⟨_, p, hk, by rw [hlen], hp⟩

theorem OneOpening.inBounds (ho : h.OneOpening s) : h.ukmmap.InBounds :=
  ⟨ho.1, fun a ha =>
    ⟨((ho.2 a ha).length_le .tx).trans s.num_le, ((ho.2 a ha).length_le .rx).trans s.num_le⟩⟩

/-- The row of an adapter, and the rows before it. -/
theorem adapter_eq_append {i : ℕ} {m : AdapterMem} (hm : h.ukmmap.adapter[i]? = some m) :
    h.ukmmap.adapter = h.ukmmap.adapter.take i ++ m :: h.ukmmap.adapter.drop (i + 1)
      ∧ (h.ukmmap.adapter.take i).length = i := by
  obtain ⟨hi, rfl⟩ := List.getElem?_eq_some_iff.mp hm
  rw [List.getElem_cons_drop, List.take_append_drop, List.length_take]
  exact ⟨rfl, Nat.min_eq_left hi.le⟩

/-- An open adapter has a ring of each kind for every queue. -/
theorem OneOpening.length_desc (ho : h.OneOpening s) (hs : h.Sound s) (hopen : h.AllOpen)
    {a : AdapterMem} (ha : a ∈ h.ukmmap.adapter) (flag : DescFlag) :
    (a.desc flag).length = s.num :=
  le_antisymm ((ho.2 a ha).length_le flag) ((hs.row a ha).opened (hopen a ha) flag)

/-- **After one opening each, the two layouts are one.** -/
theorem OneOpening.mapsRings (ho : h.OneOpening s) (hs : h.Sound s) (hopen : h.AllOpen) :
    h.MapsRings := by
  refine (mapsRings_iff hs ho.inBounds).mpr (fun i q m is_rx hm hq => ?_)
  have hmem := List.mem_of_getElem? hm
  have hlen := ho.length_desc hs hopen hmem
  obtain ⟨hl, hi⟩ := adapter_eq_append hm
  have hring := rings_getElem? hl
    (fun b hb => ho.length_desc hs hopen (List.mem_of_mem_take hb)) is_rx
    (k := q) ((hlen (descFlag is_rx)).symm ▸ hq)
  rw [hi, show m.tx_desc_num = s.num from hlen .tx, (ho.2 m hmem).ring (descFlag is_rx),
    hlen (descFlag is_rx), List.getElem?_map, List.getElem?_range hq, Option.map_some] at hring
  rw [List.getElem?_map, block, hring, Option.map_some]

/-- **Where the two layouts are one**, and no two rings have one page, the ring in use of the first
queue is the first of its kind, and every row has as many rings as there are queues. -/
theorem MapsRings.not_late (hmaps : h.MapsRings) (hs : h.Sound s) (hopen : h.AllOpen)
    (hbounds : h.ukmmap.InBounds) (hpages : (h.ukmmap.rings.map (· >>> pageShift)).Nodup)
    (hnum : 0 < s.num) {i : ℕ} {m : AdapterMem} (hm : h.ukmmap.adapter[i]? = some m)
    (flag : DescFlag) :
    (m.desc flag).length = s.num ∧ ¬(h.igb m.adapter_addr).Late m flag := by
  induction i using Nat.strong_induction_on generalizing m flag with
  | _ i ih =>
    have hmem := List.mem_of_getElem? hm
    have hrow := hs.row m hmem
    have hle := hrow.opened (hopen m hmem)
    obtain ⟨hl, hi⟩ := adapter_eq_append hm
    have hbefore : ∀ b ∈ h.ukmmap.adapter.take i, ∀ flag, (b.desc flag).length = s.num := by
      intro b hb flag
      obtain ⟨j, hj, rfl⟩ := List.mem_take_iff_getElem.mp hb
      exact (ih j (lt_of_lt_of_le hj (Nat.min_le_left _ _)) (List.getElem?_eq_getElem _) flag).1
    -- the ring of the first queue is where the process looks, and where it is in the row
    have hsame : ∀ (is_rx : Bool) (k : ℕ), (m.desc (descFlag is_rx))[k]?
          = some ((h.igb m.adapter_addr).ring (descFlag is_rx) 0) →
        (if is_rx then s.num else 0) = (if is_rx then m.tx_desc_num else 0) + k := by
      intro is_rx k hk
      have hlooks := (mapsRings_iff hs hbounds).mp hmaps i 0 m is_rx hm hnum
      have hring := rings_getElem? hl hbefore is_rx (List.getElem?_eq_some_iff.mp hk).1
      rw [hi, hk] at hring
      have hlt := (List.getElem?_eq_some_iff.mp hlooks).1
      have hpos := (List.getElem?_inj hlt hpages).mp (hlooks.trans
        (by rw [List.getElem?_map, hring, Option.map_some]))
      exact Nat.add_left_cancel hpos
    have hlate : ∀ {flag : DescFlag}, (∀ k, (m.desc flag)[k]?
        = some ((h.igb m.adapter_addr).ring flag 0) → k = 0) →
        (m.desc flag).length = s.num ∧ ¬(h.igb m.adapter_addr).Late m flag := by
      intro flag hfirst
      have hnot : ¬(h.igb m.adapter_addr).Late m flag := by
        rintro ⟨before, after, hne, hdesc⟩
        refine hne (List.eq_nil_of_length_eq_zero (hfirst before.length ?_))
        rw [hdesc, List.getElem?_append_right le_rfl, Nat.sub_self, List.getElem?_cons_zero]
      exact ⟨le_antisymm ((hrow.length flag).resolve_right hnot) (hle flag), hnot⟩
    have htx := @hlate .tx (fun k hk => by simpa using (hsame false k hk).symm)
    cases flag with
    | tx => exact htx
    | rx =>
      refine hlate (fun k hk => ?_)
      have hz : s.num = m.tx_desc_num + k := hsame true k hk
      rw [show m.tx_desc_num = s.num from htx.1] at hz
      exact Nat.left_eq_add.mp hz

/-- **After one opening each, what `driver_open` asks for is the mapping of the rings**, and not
that of the registers or of the packets. -/
theorem OneOpening.ukmemMmap_eq (ho : h.OneOpening s) (hs : h.Sound s) (hopen : h.AllOpen)
    (hne : h.ukmmap.adapter ≠ []) (q regs desc : ℕ) :
    ukmemMmap h.ukmmap 0 (driverOpen q (ukmemRead h.ukmmap) regs desc).desc_total_size
      = some .desc := by
  obtain ⟨m, rest, hm⟩ := List.exists_cons_of_ne_nil hne
  have hmem : m ∈ h.ukmmap.adapter := hm ▸ List.mem_cons_self
  have hrx : m.rx_desc_num = s.num :=
    ho.length_desc hs hopen hmem .rx
  have hn : h.ukmmap.adapter.length % 256 = h.ukmmap.adapter.length :=
    Nat.mod_eq_of_lt (lt_of_le_of_lt ho.1 (by decide))
  have hq : s.num % 256 = s.num := Nat.mod_eq_of_lt (lt_of_le_of_lt s.num_le (by decide))
  have hsize : (driverOpen q (ukmemRead h.ukmmap) regs desc).desc_total_size
      = h.ukmmap.adapter.length * (2 * s.num) * pageSize := by
    show descBlockSize * (h.ukmmap.adapter.length % 256) * (h.ukmmap.queue_num % 256) * 2 = _
    rw [hs.queue_num hne, hn, hq, show descBlockSize = pageSize from rfl]
    ring
  -- an adapter has fewer pages of rings than of registers
  have hregs : h.ukmmap.adapter.length * (2 * s.num) * pageSize
      ≠ h.ukmmap.adapter.length * h.ukmmap.regs_pages * pageSize := by
    intro he
    have hpos : 0 < h.ukmmap.adapter.length := List.length_pos_iff.mpr hne
    have hpages := Nat.eq_of_mul_eq_mul_left hpos (Nat.eq_of_mul_eq_mul_right (by decide) he)
    rw [hs.regs_pages] at hpages
    have hle : s.num ≤ 8 := s.num_le
    omega
  have hdesc : h.ukmmap.adapter.length * (2 * s.num) * pageSize
      = h.ukmmap.adapter.length * h.ukmmap.desc_pages * pageSize
        * (h.ukmmap.adapter.head?.map AdapterMem.rx_desc_num).getD 0 * 2 := by
    rw [hs.desc_pages, hm, List.head?_cons, Option.map_some, Option.getD_some, hrx]
    ring
  rw [hsize, ukmemMmap, if_neg (by simp), if_neg hregs, if_pos hdesc]

end Host

/-- **User space maps the rings in use as long as adapters set up their rings once.** After any
calls whose openings find empty rows in a table that is not full, and do not set up their rings again,
the counters are within the arrays and, once every adapter is open, the mapping holds the rings in
use; and where it does after any calls, with no two registered rings in one page, all openings were
of that kind. -/
theorem ukmemSystem_mapsRings_iff (s : IgbSetup) :
    (∀ h, ((ukmemSystem s).restrict Host.FirstOpen).Reachable h →
        h.ukmmap.InBounds ∧ (h.AllOpen → h.MapsRings))
      ∧ ∀ calls h, (ukmemSystem s).Run Host.init calls h → h.AllOpen →
        (h.ukmmap.rings.map (· >>> pageShift)).Nodup →
        h.ukmmap.InBounds → h.MapsRings →
        ((ukmemSystem s).restrict Host.FirstOpen).Run Host.init calls h := by
  constructor
  · intro h hreach
    have ho := ukmemSystem_oneOpening hreach
    exact ⟨ho.inBounds, ho.mapsRings (ukmemSystem_sound hreach.of_restrict)⟩
  · intro calls h hrun hopen hpages hbounds hmaps
    have hs := ukmemSystem_sound ⟨Host.init, calls, rfl, hrun⟩
    rcases ukmemSystem_firstOpen_or hrun with hfirst | hover | ⟨hnum, a, ha, flag, hlate⟩
    · exact hfirst
    · exact absurd hbounds.1 (not_le.mpr hover)
    · obtain ⟨i, hi⟩ := List.mem_iff_getElem?.mp ha
      exact absurd hlate (hmaps.not_late hs hopen hbounds hpages hnum hi flag).2

/-- One queue an adapter. -/
def oneQueue : IgbSetup := ⟨1, 4, 0, true⟩

/-- The memory of a tx and of an rx ring. -/
def ringMemory (tx rx : ℕ) : DescFlag → ℕ → Option ℕ := fun flag _ =>
  some (if flag = .tx then tx else rx)

/-- MSI-X is granted. -/
def msixGranted : IrqRequest := ⟨true, true, true, fun _ _ => none, true⟩

/-- MSI-X is not granted, and an MSI is; the rings that are set up again get memory. -/
def msiGranted (tx rx : ℕ) : IrqRequest := ⟨false, true, true, ringMemory tx rx, true⟩

/-- Two adapters are registered and opened: one without MSI-X, and one with it, which is granted. -/
def openedOnce : List UkmemCall :=
  [.igbProbe 9 true, .igbProbe 7 false,
    .igbOpen 7 false (ringMemory 0x1000 0x2000) (msiGranted 0x3000 0x4000),
    .igbOpen 9 false (ringMemory 0x5000 0x6000) msixGranted]

/-- An adapter is registered and opened, closed and opened again. -/
def openedTwice : List UkmemCall :=
  [.igbProbe 9 true, .igbOpen 9 false (ringMemory 0x1000 0x2000) msixGranted, .igbClose 9,
    .igbOpen 9 false (ringMemory 0x3000 0x4000) msixGranted]

/-- An adapter is registered and opened once, and is not granted MSI-X. -/
def openedOverMsi : List UkmemCall :=
  [.igbProbe 9 true, .igbOpen 9 false (ringMemory 0x1000 0x2000) (msiGranted 0x3000 0x4000)]

/-- The kernel after some calls. -/
def Host.after (calls : List UkmemCall) : Host :=
  calls.foldl (fun h c => (h.call oneQueue c).getD h) Host.init

theorem registered_of_mem {h : Host} {adapter : ℕ}
    (hmem : adapter ∈ h.ukmmap.adapter.map AdapterMem.adapter_addr) : h.Registered adapter := by
  obtain ⟨a, ha, haddr⟩ := List.mem_map.mp hmem
  exact ⟨a, ha, haddr⟩

theorem not_registered_of_notMem {h : Host} {adapter : ℕ}
    (hmem : adapter ∉ h.ukmmap.adapter.map AdapterMem.adapter_addr) : ¬h.Registered adapter :=
  fun ⟨a, ha, haddr⟩ => hmem (List.mem_map.mpr ⟨a, ha, haddr⟩)

theorem openedOnce_run :
    ((ukmemSystem oneQueue).restrict Host.FirstOpen).Run Host.init openedOnce
      (Host.after openedOnce) := by
  have hprobe : ((ukmemSystem oneQueue).restrict Host.FirstOpen).step Host.init
      (.igbProbe 9 true) (Host.after (openedOnce.take 1)) :=
    ⟨(by decide : 0 < maxAdapterNum), ⟨not_registered_of_notMem (by decide), .inl rfl⟩, rfl⟩
  have hprobe' : ((ukmemSystem oneQueue).restrict Host.FirstOpen).step
      (Host.after (openedOnce.take 1)) (.igbProbe 7 false) (Host.after (openedOnce.take 2)) :=
    ⟨(by decide : 1 < maxAdapterNum), ⟨not_registered_of_notMem (by decide), .inr (by decide)⟩, rfl⟩
  have hopen : ((ukmemSystem oneQueue).restrict Host.FirstOpen).step
      (Host.after (openedOnce.take 2))
      (.igbOpen 7 false (ringMemory 0x1000 0x2000) (msiGranted 0x3000 0x4000))
      (Host.after (openedOnce.take 3)) := by
    refine ⟨fun _ _ => ⟨?_, fun hagain => ?_⟩, registered_of_mem (by decide), rfl⟩
    · decide
    · exact absurd hagain.1 (by decide)
  refine (((System.Run.single hprobe).snoc hprobe').snoc hopen).snoc
    ⟨fun _ _ => ⟨?_, fun hagain => ?_⟩, registered_of_mem (by decide), rfl⟩
  · decide
  · exact absurd hagain.2.2.1 (by decide)

theorem ukmemSystem_mapsRings_iff_openedOnce :
    (Host.after openedOnce).ukmmap.InBounds ∧ (Host.after openedOnce).MapsRings := by
  obtain ⟨hbounds, hmaps⟩ := (ukmemSystem_mapsRings_iff oneQueue).1 _
    ⟨Host.init, openedOnce, rfl, openedOnce_run⟩
  exact ⟨hbounds, hmaps (by unfold Host.AllOpen; decide +kernel)⟩

/-- **An adapter that is opened again, and one that is not granted MSI-X**: where a process looks
for its rx ring it finds the second tx ring. -/
theorem reopened_maps_stale_ring :
    ((ukmemSystem oneQueue).Run Host.init openedTwice (Host.after openedTwice)
        ∧ (Host.after openedTwice).AllOpen ∧ ¬(Host.after openedTwice).MapsRings
        ∧ ukmemMmapDesc (Host.after openedTwice).ukmmap
          = [(0, 1), (0x1000, 3), (0x2000, 2), (0x3000, 4)])
      ∧ (ukmemSystem oneQueue).Run Host.init openedOverMsi (Host.after openedOverMsi)
        ∧ (Host.after openedOverMsi).AllOpen ∧ ¬(Host.after openedOverMsi).MapsRings
        ∧ ukmemMmapDesc (Host.after openedOverMsi).ukmmap
          = [(0, 1), (0x1000, 3), (0x2000, 2), (0x3000, 4)] := by
  have hprobe : (ukmemSystem oneQueue).Run Host.init [.igbProbe 9 true]
      (Host.after (openedTwice.take 1)) :=
    .single ⟨⟨not_registered_of_notMem (by decide), .inl rfl⟩, rfl⟩
  have hopen : (ukmemSystem oneQueue).step (Host.after (openedTwice.take 1))
      (.igbOpen 9 false (ringMemory 0x1000 0x2000) msixGranted)
      (Host.after (openedTwice.take 2)) :=
    ⟨registered_of_mem (h := Host.after (openedTwice.take 1)) (by decide), rfl⟩
  have hclose : (ukmemSystem oneQueue).step (Host.after (openedTwice.take 2)) (.igbClose 9)
      (Host.after (openedTwice.take 3)) :=
    ⟨registered_of_mem (h := Host.after (openedTwice.take 2)) (by decide), rfl⟩
  have hagain : (ukmemSystem oneQueue).step (Host.after (openedTwice.take 3))
      (.igbOpen 9 false (ringMemory 0x3000 0x4000) msixGranted) (Host.after openedTwice) :=
    ⟨registered_of_mem (h := Host.after (openedTwice.take 3)) (by decide), rfl⟩
  have hmsi : (ukmemSystem oneQueue).step (Host.after (openedTwice.take 1))
      (.igbOpen 9 false (ringMemory 0x1000 0x2000) (msiGranted 0x3000 0x4000))
      (Host.after openedOverMsi) :=
    ⟨registered_of_mem (h := Host.after (openedTwice.take 1)) (by decide), rfl⟩
  have hrun := ((hprobe.snoc hopen).snoc hclose).snoc hagain
  have hrun' := hprobe.snoc hmsi
  have hallOpen : (Host.after openedTwice).AllOpen := by unfold Host.AllOpen; decide +kernel
  have hallOpen' : (Host.after openedOverMsi).AllOpen := by unfold Host.AllOpen; decide +kernel
  -- the first tx ring is before the one in use
  refine ⟨⟨hrun, hallOpen, fun hmaps => ?_, by decide +kernel⟩, hrun', hallOpen', fun hmaps => ?_,
    by decide +kernel⟩
  · exact (hmaps.not_late (ukmemSystem_sound ⟨_, _, rfl, hrun⟩) hallOpen
      (by unfold Ukmem.InBounds; decide +kernel) (by decide +kernel) (by decide) (i := 0) rfl .tx).2
      ⟨[0x1000], [], by decide, by decide +kernel⟩
  · exact (hmaps.not_late (ukmemSystem_sound ⟨_, _, rfl, hrun'⟩) hallOpen'
      (by unfold Ukmem.InBounds; decide +kernel) (by decide +kernel) (by decide) (i := 0) rfl .tx).2
      ⟨[0x1000], [], by decide, by decide +kernel⟩
