import Ustack.Runs

/-!
# The descriptor memory the kernel hands to user space

The table of `src/modules/ukmem.c` and what `igb_main.c` puts in it. Probing an adapter
takes a row of the table; opening it allocates the memory of its rings, and registers
every ring in the row as soon as it has its memory. Nothing is ever taken out of the
table: `igb_close` frees the memory of the rings and does not tell `ukmem`, and nor do the
error paths of `igb_open`. An opening whose request for MSI-X fails sets up the rings of one
queue again, and registers them once more (`igbRequestIrq`).

The arrays of the table have `MAX_ADAPTER_NUM` rows and `MAX_DESC_NUM` entries, which
nothing checks. Here they go on past their ends; a state whose counters are past them is
one that the code, which stores over what lies behind the arrays, does not get to
(`Ukmem.InBounds`).
-/

/-! ## The table -/

/-- `MAX_DESC_NUM`. -/
def maxDescNum : ℕ := 8

/-- `MAX_ADAPTER_NUM`. -/
def maxAdapterNum : ℕ := 16

/-- `PAGE_SIZE`. -/
def pageSize : ℕ := 4096

/-- `PAGE_SHIFT`. -/
def pageShift : ℕ := 12

/-- `TX_FLAG` and `RX_FLAG`. -/
inductive DescFlag
  | tx
  | rx
  deriving DecidableEq

/-- `struct adapter_mem`, without its register and MAC address. -/
structure AdapterMem where
  /-- The address of the adapter. -/
  adapter_addr : ℕ
  /-- The first `tx_desc_num` entries of `tx_desc`: physical addresses. -/
  tx_desc : List ℕ
  /-- The first `rx_desc_num` entries of `rx_desc`. -/
  rx_desc : List ℕ

namespace AdapterMem

/-- `tx_desc_num`. -/
def tx_desc_num (a : AdapterMem) : ℕ := a.tx_desc.length

/-- `rx_desc_num`. -/
def rx_desc_num (a : AdapterMem) : ℕ := a.rx_desc.length

/-- The entries of one of the arrays. -/
def desc (a : AdapterMem) : DescFlag → List ℕ
  | .tx => a.tx_desc
  | .rx => a.rx_desc

/-- Some entries after the others of an array. -/
def append (flag : DescFlag) (l : List ℕ) (a : AdapterMem) : AdapterMem :=
  match flag with
  | .tx => { a with tx_desc := a.tx_desc ++ l }
  | .rx => { a with rx_desc := a.rx_desc ++ l }

@[simp]
theorem append_adapter_addr (flag : DescFlag) (l : List ℕ) (a : AdapterMem) :
    (a.append flag l).adapter_addr = a.adapter_addr := by
  cases flag <;> rfl

theorem append_desc (flag flag' : DescFlag) (l : List ℕ) (a : AdapterMem) :
    (a.append flag l).desc flag' = if flag' = flag then a.desc flag' ++ l else a.desc flag' := by
  cases flag <;> cases flag' <;> rfl

theorem append_nil (flag : DescFlag) (a : AdapterMem) : a.append flag [] = a := by
  cases flag <;> simp [append]

theorem append_append (flag : DescFlag) (l l' : List ℕ) (a : AdapterMem) :
    (a.append flag l).append flag l' = a.append flag (l ++ l') := by
  cases flag <;> simp [append]

end AdapterMem

/-- `struct ukmem`, as far as the rings go. -/
structure Ukmem where
  /-- The first `adapter_num` rows of the table. -/
  adapter : List AdapterMem
  /-- The number of queues of each adapter. -/
  queue_num : ℕ
  /-- The pages of the registers of an adapter. -/
  regs_pages : ℕ
  /-- The pages of the descriptors of a ring. -/
  desc_pages : ℕ

/-- `ukmmap_init`. -/
def ukmmapInit (regs_pages desc_pages : ℕ) : Ukmem where
  adapter := []
  queue_num := 0
  regs_pages := regs_pages
  desc_pages := desc_pages

/-- `ukmem_find_adapter`: the first row of an address. -/
def ukmemFindAdapter (u : Ukmem) (adapter_addr : ℕ) : Option ℕ :=
  u.adapter.findIdx? (fun a => a.adapter_addr = adapter_addr)

/-- `ukmem_alloc_adapter`: the next row, whose counters are those of `ukmmap_init`. -/
def ukmemAllocAdapter (u : Ukmem) (adapter_addr : ℕ) : Ukmem :=
  { u with adapter := u.adapter ++ [⟨adapter_addr, [], []⟩] }

/-- `ukmem_add_desc`. -/
def ukmemAddDesc (u : Ukmem) (adapter_addr desc_phys : ℕ) (flag : DescFlag) : Ukmem :=
  match ukmemFindAdapter u adapter_addr with
  | none => u
  | some i =>
    { u with
      adapter := u.adapter.modify i (fun a =>
        if flag = .tx then { a with tx_desc := a.tx_desc ++ [desc_phys] }
        else { a with rx_desc := a.rx_desc ++ [desc_phys] }) }

/-- `ukmem_set_queue_num`. -/
def ukmemSetQueueNum (u : Ukmem) (num : ℕ) : Ukmem := { u with queue_num := num }

/-- `ukmem_read`, as far as the rings go: the numbers of adapters and of queues. -/
def ukmemRead (u : Ukmem) : ℕ × ℕ := (u.adapter.length, u.queue_num)

/-- A loop of `ukmem_mmap_desc`: the pages of the rings, each `len` bytes after the one
before; what is mapped at which offset, and the offset after it. -/
def mapRings (len : ℕ) : ℕ → List ℕ → List (ℕ × ℕ) × ℕ
  | size, [] => ([], size)
  | size, phys_addr :: rest =>
    let (mapped, size') := mapRings len (size + len) rest
    ((size, phys_addr >>> pageShift) :: mapped, size')

/-- The outer loop of `ukmem_mmap_desc`: of each adapter, its tx rings and then its rx
rings. -/
def mapAdapters (len : ℕ) : ℕ → List AdapterMem → List (ℕ × ℕ)
  | _, [] => []
  | size, a :: rest =>
    let (tx, size₁) := mapRings len size a.tx_desc
    let (rx, size₂) := mapRings len size₁ a.rx_desc
    tx ++ rx ++ mapAdapters len size₂ rest

/-- `ukmem_mmap_desc`: which page is mapped at which offset. -/
def ukmemMmapDesc (u : Ukmem) : List (ℕ × ℕ) :=
  mapAdapters (u.desc_pages * pageSize) 0 u.adapter

/-- What a mapping is of. -/
inductive UkmemMapping
  | regs
  | desc
  | buffer
  deriving DecidableEq

/-- `ukmem_mmap`: what is mapped, by the size that is asked for. -/
def ukmemMmap (u : Ukmem) (pgoff size : ℕ) : Option UkmemMapping :=
  if pgoff ≠ 0 ∨ size % pageSize ≠ 0 then none
  else if size = u.adapter.length * u.regs_pages * pageSize then some .regs
  else if size = u.adapter.length * u.desc_pages * pageSize
      * (u.adapter.head?.map AdapterMem.rx_desc_num).getD 0 * 2 then some .desc
  else some .buffer

/-- **The counters are within the arrays.** -/
def Ukmem.InBounds (u : Ukmem) : Prop :=
  u.adapter.length ≤ maxAdapterNum
    ∧ ∀ a ∈ u.adapter, a.tx_desc_num ≤ maxDescNum ∧ a.rx_desc_num ≤ maxDescNum

/-- The registered rings, in the order of the table. -/
def Ukmem.rings (u : Ukmem) : List ℕ := u.adapter.flatMap (fun a => a.tx_desc ++ a.rx_desc)

/-! ### The offsets of the mapping -/

theorem mapRings_eq (len size : ℕ) (l : List ℕ) :
    mapRings len size l
      = (l.mapIdx (fun k p => (size + k * len, p >>> pageShift)), size + l.length * len) := by
  induction l generalizing size with
  | nil => simp [mapRings]
  | cons p l ih =>
    rw [mapRings, ih, List.mapIdx_cons, List.length_cons]
    have hoff : ∀ k, size + len + k * len = size + (k + 1) * len := fun k => by ring
    simp only [hoff, Nat.zero_mul, Nat.add_zero]

theorem mapAdapters_eq (len size : ℕ) (l : List AdapterMem) :
    mapAdapters len size l
      = (l.flatMap (fun a => a.tx_desc ++ a.rx_desc)).mapIdx
          (fun k p => (size + k * len, p >>> pageShift)) := by
  induction l generalizing size with
  | nil => rfl
  | cons a l ih =>
    have hoff : ∀ n k, size + n * len + k * len = size + (k + n) * len := fun n k => by ring
    rw [mapAdapters, List.flatMap_cons, List.mapIdx_append, List.mapIdx_append]
    simp only [mapRings_eq, ih, hoff, List.length_append]
    rw [Nat.add_comm a.rx_desc.length]

/-- **What is mapped where**: the `k`-th of the registered rings at the `k`-th block. -/
theorem mem_ukmemMmapDesc {u : Ukmem} {o page : ℕ} :
    (o, page) ∈ ukmemMmapDesc u
      ↔ ∃ k p, u.rings[k]? = some p ∧ k * (u.desc_pages * pageSize) = o
        ∧ p >>> pageShift = page := by
  rw [ukmemMmapDesc, mapAdapters_eq, ← Ukmem.rings, List.mem_iff_getElem?]
  refine exists_congr (fun k => ?_)
  rw [List.getElem?_mapIdx, Option.map_eq_some_iff]
  refine exists_congr (fun p => and_congr_right (fun _ => ?_))
  rw [Prod.mk.injEq, Nat.zero_add]

/-! ### Adding to the table -/

/-- The rows of an address, with some entries more. -/
def Ukmem.appendAt (u : Ukmem) (adapter_addr : ℕ) (flag : DescFlag) (l : List ℕ) : Ukmem :=
  { u with
    adapter := u.adapter.map (fun a =>
      if a.adapter_addr = adapter_addr then a.append flag l else a) }

/-- No two rows have one address. -/
def Ukmem.Distinct (u : Ukmem) : Prop := (u.adapter.map AdapterMem.adapter_addr).Nodup

/-- The first row of an address, changed, is every row of it, where no two rows have one. -/
theorem modify_findIdx_eq_map {α β : Type*} [DecidableEq β] {key : α → β} {k : β} {f : α → α}
    {l : List α} (hl : (l.map key).Nodup) :
    (match l.findIdx? (fun a => key a = k) with
      | none => l
      | some i => l.modify i f) = l.map (fun a => if key a = k then f a else a) := by
  induction l with
  | nil => rfl
  | cons a l ih =>
    rw [List.map_cons, List.nodup_cons] at hl
    rw [List.findIdx?_cons, List.map_cons]
    by_cases ha : key a = k
    · simp only [ha, decide_true, if_true]
      -- the rows after it have other addresses
      have hrest : l.map (fun b => if key b = k then f b else b) = l := by
        refine (List.map_congr_left (fun b hb => if_neg (fun hk => ?_))).trans (List.map_id _)
        exact hl.1 (List.mem_map.mpr ⟨b, hb, hk.trans ha.symm⟩)
      rw [hrest]
      rfl
    · simp only [ha, decide_false, Bool.false_eq_true, if_false]
      rw [← ih hl.2]
      cases l.findIdx? (fun a => key a = k) <;> rfl

theorem ukmemAddDesc_eq {u : Ukmem} (hu : u.Distinct) (adapter_addr desc_phys : ℕ)
    (flag : DescFlag) :
    ukmemAddDesc u adapter_addr desc_phys flag = u.appendAt adapter_addr flag [desc_phys] := by
  have hrow : (fun a : AdapterMem =>
      if flag = .tx then { a with tx_desc := a.tx_desc ++ [desc_phys] }
      else { a with rx_desc := a.rx_desc ++ [desc_phys] }) = AdapterMem.append flag [desc_phys] := by
    funext a
    cases flag <;> rfl
  have hmap := modify_findIdx_eq_map (k := adapter_addr) (f := AdapterMem.append flag [desc_phys])
    hu
  rw [ukmemAddDesc, hrow, ukmemFindAdapter, Ukmem.appendAt, ← hmap]
  cases u.adapter.findIdx? (fun a => a.adapter_addr = adapter_addr) <;> rfl

theorem Ukmem.Distinct.appendAt {u : Ukmem} (hu : u.Distinct) (adapter_addr : ℕ)
    (flag : DescFlag) (l : List ℕ) : (u.appendAt adapter_addr flag l).Distinct := by
  have hmap : (u.appendAt adapter_addr flag l).adapter.map AdapterMem.adapter_addr
      = u.adapter.map AdapterMem.adapter_addr := by
    rw [Ukmem.appendAt, List.map_map]
    refine List.map_congr_left (fun a _ => ?_)
    show (if a.adapter_addr = adapter_addr then a.append flag l else a).adapter_addr = _
    split
    · exact a.append_adapter_addr flag l
    · rfl
  rw [Ukmem.Distinct, hmap]
  exact hu

theorem Ukmem.appendAt_nil (u : Ukmem) (adapter_addr : ℕ) (flag : DescFlag) :
    u.appendAt adapter_addr flag [] = u := by
  simp [Ukmem.appendAt, AdapterMem.append_nil]

theorem Ukmem.appendAt_appendAt (u : Ukmem) (adapter_addr : ℕ) (flag : DescFlag)
    (l l' : List ℕ) :
    (u.appendAt adapter_addr flag l).appendAt adapter_addr flag l'
      = u.appendAt adapter_addr flag (l ++ l') := by
  simp only [Ukmem.appendAt, List.map_map]
  congr 1
  refine List.map_congr_left (fun a _ => ?_)
  by_cases ha : a.adapter_addr = adapter_addr
  · simp [ha, AdapterMem.append_append]
  · simp [ha]

theorem Ukmem.length_appendAt (u : Ukmem) (adapter_addr : ℕ) (flag : DescFlag) (l : List ℕ) :
    (u.appendAt adapter_addr flag l).adapter.length = u.adapter.length :=
  List.length_map _

/-- A row after some entries were added is one of before: the adapter's with the entries, or
another as it was. -/
theorem Ukmem.mem_appendAt {u : Ukmem} {adapter_addr : ℕ} {flag : DescFlag} {l : List ℕ}
    {a : AdapterMem} :
    a ∈ (u.appendAt adapter_addr flag l).adapter
      ↔ ∃ b ∈ u.adapter, (b.adapter_addr = adapter_addr ∧ a = b.append flag l)
        ∨ (b.adapter_addr ≠ adapter_addr ∧ a = b) := by
  rw [Ukmem.appendAt, List.mem_map]
  refine exists_congr (fun b => and_congr_right (fun _ => ?_))
  by_cases hb : b.adapter_addr = adapter_addr
  · rw [if_pos hb, eq_comm]
    exact ⟨fun h => .inl ⟨hb, h⟩, fun h => h.elim And.right (fun h => absurd hb h.1)⟩
  · rw [if_neg hb, eq_comm]
    exact ⟨fun h => .inr ⟨hb, h⟩, fun h => h.elim (fun h => absurd h.1 hb) And.right⟩

/-! ## Opening and closing an adapter -/

/-- What the number of queues is computed from: the module's parameter, the processors, the
virtual functions, and whether the NIC is later than the 82575. -/
structure IgbSetup where
  /-- The parameter `queue_num`. -/
  queue_num : ℕ
  /-- `num_online_cpus`. -/
  num_online_cpus : ℕ
  /-- The virtual functions. -/
  vfs_allocated_count : ℕ
  /-- `hw->mac.type > e1000_82575`. -/
  above_82575 : Bool

namespace IgbSetup

/-- `IGB_MAX_RX_QUEUES`. -/
def maxRxQueues (s : IgbSetup) : ℕ :=
  if s.vfs_allocated_count ≠ 0 then 2 else if s.above_82575 then 8 else 4

/-- The number of queues that `igb_sw_init` takes. -/
def num (s : IgbSetup) : ℕ := min s.maxRxQueues (min s.queue_num s.num_online_cpus)

/-- **The queues of an adapter fit the arrays.** -/
theorem num_le (s : IgbSetup) : s.num ≤ maxDescNum := by
  refine (Nat.min_le_left _ _).trans ?_
  unfold maxRxQueues maxDescNum
  split_ifs <;> decide

end IgbSetup

/-- `struct igb_adapter`, as far as its rings go. -/
structure IgbAdapter where
  /-- Whether its rings are set up. -/
  is_open : Bool
  /-- `num_tx_queues` and `num_rx_queues`, which are set together. -/
  num_queues : ℕ
  /-- Whether there are `msix_entries`. -/
  msix_entries : Bool
  /-- What was last registered of a queue: `tx_ring[i]->dma` and `rx_ring[i]->dma`. -/
  ring : DescFlag → ℕ → ℕ

/-- The kernel: the table, and the adapters by their addresses. -/
structure Host where
  /-- The table. -/
  ukmmap : Ukmem
  /-- The adapters. -/
  igb : ℕ → IgbAdapter

/-- What becomes of the requests of `igb_request_irq`. -/
structure IrqRequest where
  /-- Whether `igb_request_msix` succeeds. -/
  msix : Bool
  /-- Whether `igb_alloc_q_vectors` succeeds. -/
  q_vectors : Bool
  /-- Whether `igb_alloc_queues` succeeds. -/
  queues : Bool
  /-- The memory of the rings that are set up again. -/
  dma : DescFlag → ℕ → Option ℕ
  /-- Whether an MSI or a legacy interrupt is granted. -/
  irq : Bool

namespace Host

/-- The modules are loaded: `ukmmap_init(128, 1, 10)`. -/
def init : Host := ⟨ukmmapInit 128 1, fun _ => ⟨false, 0, false, fun _ _ => 0⟩⟩

/-- The queues of an adapter, and whether it has MSI-X. -/
def setQueues (h : Host) (adapter num_queues : ℕ) (msix_entries : Bool) : Host :=
  { h with
    igb := Function.update h.igb adapter
      { h.igb adapter with num_queues := num_queues, msix_entries := msix_entries } }

/-- `igb_probe`, as far as the rings go, with whether MSI-X can be enabled: without it
`igb_set_interrupt_capability` takes one queue, after `igb_sw_init` told `ukmem` how many. -/
def igbProbe (s : IgbSetup) (h : Host) (adapter : ℕ) (msix : Bool) : Host :=
  setQueues { h with ukmmap := ukmemSetQueueNum (ukmemAllocAdapter h.ukmmap adapter) s.num }
    adapter (if msix then s.num else 1) msix

/-- The loop of `igb_setup_all_tx_resources` and `igb_setup_all_rx_resources` over some of
the queues, with the memory that `dma_alloc_coherent` finds for each. -/
def setupQueues (adapter : ℕ) (flag : DescFlag) (dma : ℕ → Option ℕ) :
    List ℕ → Ukmem → (ℕ → ℕ) → (Ukmem × (ℕ → ℕ)) × Bool
  | [], u, ring => ((u, ring), true)
  | i :: rest, u, ring =>
    match dma i with
    | none => ((u, ring), false)
    | some phys =>
      setupQueues adapter flag dma rest (ukmemAddDesc u adapter phys flag)
        (Function.update ring i phys)

/-- `igb_setup_all_tx_resources` and `igb_setup_all_rx_resources`. -/
def igbSetupAllResources (h : Host) (adapter : ℕ) (flag : DescFlag) (dma : ℕ → Option ℕ) :
    Host × Bool :=
  let a := h.igb adapter
  let ((u, ring), ok) :=
    setupQueues adapter flag dma (List.range a.num_queues) h.ukmmap (a.ring flag)
  (⟨u, Function.update h.igb adapter { a with ring := Function.update a.ring flag ring }⟩, ok)

/-- `igb_request_irq`: the rings set up again for one queue, where MSI-X is not granted. The
queues are gone before their memory is to be freed, so none is; and nothing comes of it
(`none`) where there is no memory for the vectors: `igb_open` then frees the ring of the one
queue, which has none. -/
def igbRequestIrq (h : Host) (adapter : ℕ) (req : IrqRequest) : Option (Host × Bool) :=
  if (h.igb adapter).msix_entries = false then some (h, req.irq)
  else if req.msix then some (h, true)
  else if req.q_vectors = false then none
  else if req.queues = false then some (h.setQueues adapter 0 false, false)
  else
    -- whether the rings get their memory is not looked at
    let (h, _) := igbSetupAllResources (h.setQueues adapter 1 false) adapter .tx (req.dma .tx)
    let (h, _) := igbSetupAllResources h adapter .rx (req.dma .rx)
    some (h, req.irq)

/-- Its rings are set up, or not. -/
def setOpen (h : Host) (adapter : ℕ) (is_open : Bool) : Host :=
  { h with igb := Function.update h.igb adapter { h.igb adapter with is_open := is_open } }

/-- `igb_open`: whether the adapter is in a test, the memory of its rings, and what becomes of
the requests for its interrupts. Nothing comes of it (`none`) without queues, by whose number
`igb_setup_all_tx_resources` divides. -/
def igbOpen (h : Host) (adapter : ℕ) (testing : Bool) (dma : DescFlag → ℕ → Option ℕ)
    (req : IrqRequest) : Option Host :=
  if testing then some h
  else if (h.igb adapter).num_queues = 0 then none
  else
    let (h, tx) := igbSetupAllResources h adapter .tx (dma .tx)
    if tx = false then some (h.setOpen adapter false)
    else
      let (h, rx) := igbSetupAllResources h adapter .rx (dma .rx)
      if rx = false then some (h.setOpen adapter false)
      else (igbRequestIrq h adapter req).map (fun (h, irq) => h.setOpen adapter irq)

/-- `igb_close`. -/
def igbClose (h : Host) (adapter : ℕ) : Host := h.setOpen adapter false

theorem setOpen_igb_self (h : Host) (adapter : ℕ) (is_open : Bool) :
    (h.setOpen adapter is_open).igb adapter = { h.igb adapter with is_open := is_open } :=
  Function.update_self _ _ _

theorem setOpen_igb_of_ne (h : Host) {adapter b : ℕ} (hb : b ≠ adapter) (is_open : Bool) :
    (h.setOpen adapter is_open).igb b = h.igb b := Function.update_of_ne hb _ _

theorem setQueues_igb_self (h : Host) (adapter num_queues : ℕ) (msix_entries : Bool) :
    (h.setQueues adapter num_queues msix_entries).igb adapter
      = { h.igb adapter with num_queues := num_queues, msix_entries := msix_entries } :=
  Function.update_self _ _ _

theorem setQueues_igb_of_ne (h : Host) {adapter b : ℕ} (hb : b ≠ adapter) (num_queues : ℕ)
    (msix_entries : Bool) : (h.setQueues adapter num_queues msix_entries).igb b = h.igb b :=
  Function.update_of_ne hb _ _

end Host

/-! ### What setting up registers -/

/-- The memory of the rings before the first that gets none. -/
def handedOut (dma : ℕ → Option ℕ) : List ℕ → List ℕ
  | [] => []
  | i :: rest =>
    match dma i with
    | none => []
    | some phys => phys :: handedOut dma rest

theorem length_handedOut_le (dma : ℕ → Option ℕ) (l : List ℕ) :
    (handedOut dma l).length ≤ l.length := by
  induction l with
  | nil => exact le_rfl
  | cons i rest ih =>
    rw [handedOut]
    split
    · exact Nat.zero_le _
    · exact Nat.succ_le_succ ih

theorem length_handedOut {dma : ℕ → Option ℕ} {l : List ℕ}
    (hl : ∀ i ∈ l, (dma i).isSome = true) : (handedOut dma l).length = l.length := by
  induction l with
  | nil => rfl
  | cons i rest ih =>
    obtain ⟨hi, hrest⟩ := List.forall_mem_cons.mp hl
    obtain ⟨phys, hphys⟩ := Option.isSome_iff_exists.mp hi
    rw [handedOut, hphys]
    exact congrArg (· + 1) (ih hrest)

/-- Nothing is handed out if there are no rings, or the first gets no memory. -/
theorem handedOut_range_eq_nil {dma : ℕ → Option ℕ} {num : ℕ} :
    handedOut dma (List.range num) = [] ↔ ¬(0 < num ∧ (dma 0).isSome = true) := by
  cases num with
  | zero => simp [handedOut]
  | succ n =>
    rw [List.range_succ_eq_map, handedOut]
    cases dma 0 <;> simp

/-- **Some rings of an adapter are registered.** -/
structure Batch (flag : DescFlag) (l : List ℕ) (x x' : IgbAdapter) : Prop where
  /-- It is open if it was. -/
  is_open : x'.is_open = x.is_open
  /-- Its queues are as many. -/
  num_queues : x'.num_queues = x.num_queues
  /-- It has MSI-X if it had. -/
  msix_entries : x'.msix_entries = x.msix_entries
  /-- Of its rings of the other kind nothing is registered. -/
  other : ∀ other, other ≠ flag → x'.ring other = x.ring other
  /-- The rings are those of its first queues. -/
  new : l = (List.range l.length).map (x'.ring flag)
  /-- If there are none, it is as it was. -/
  old : l = [] → x'.ring flag = x.ring flag
  /-- There are no more than its queues. -/
  length_le : l.length ≤ x.num_queues

/-- The first ring of a batch is that of the first queue. -/
theorem Batch.eq_cons {flag : DescFlag} {l : List ℕ} {x x' : IgbAdapter} (hb : Batch flag l x x')
    (hl : l ≠ []) : ∃ rest, l = x'.ring flag 0 :: rest := by
  obtain ⟨n, hn⟩ := Nat.exists_eq_succ_of_ne_zero (mt List.eq_nil_of_length_eq_zero hl)
  have hnew := hb.new
  rw [hn, List.range_succ_eq_map, List.map_cons] at hnew
  exact ⟨_, hnew⟩

namespace Host

/-- **Setting up the rings registers the memory handed out**, up to the first ring that gets
none. -/
theorem setupQueues_eq {u : Ukmem} (hu : u.Distinct) (adapter : ℕ) (flag : DescFlag)
    (dma : ℕ → Option ℕ) {l : List ℕ} (hl : l.Nodup) (ring : ℕ → ℕ) :
    ∃ ring', setupQueues adapter flag dma l u ring
        = ((u.appendAt adapter flag (handedOut dma l), ring'),
            decide (∀ i ∈ l, (dma i).isSome = true))
      ∧ (∀ i, i ∉ l.take (handedOut dma l).length → ring' i = ring i)
      ∧ handedOut dma l = (l.take (handedOut dma l).length).map ring' := by
  induction l generalizing u ring with
  | nil => exact ⟨ring, by rw [handedOut, u.appendAt_nil]; rfl, fun _ _ => rfl, rfl⟩
  | cons i rest ih =>
    rw [List.nodup_cons] at hl
    rw [setupQueues, handedOut]
    cases hdma : dma i with
    | none =>
      have hfail : ¬∀ j ∈ i :: rest, (dma j).isSome = true := fun h => by
        have hi := h i List.mem_cons_self
        rw [hdma] at hi
        exact absurd hi (by decide)
      exact ⟨ring, by rw [u.appendAt_nil, decide_eq_false hfail], fun _ _ => rfl, rfl⟩
    | some phys =>
      obtain ⟨ring', heq, hother, hall⟩ :=
        ih (hu.appendAt adapter flag [phys]) hl.2 (Function.update ring i phys)
      have hok : decide (∀ j ∈ rest, (dma j).isSome = true)
          = decide (∀ j ∈ i :: rest, (dma j).isSome = true) := by
        rw [decide_eq_decide, List.forall_mem_cons, hdma]
        exact ⟨fun h => ⟨rfl, h⟩, And.right⟩
      refine ⟨ring', ?_, fun j hj => ?_, ?_⟩
      · show setupQueues adapter flag dma rest (ukmemAddDesc u adapter phys flag) _ = _
        rw [ukmemAddDesc_eq hu, heq, Ukmem.appendAt_appendAt, hok]
        rfl
      · rw [List.length_cons, List.take_succ_cons, List.mem_cons, not_or] at hj
        rw [hother j hj.2, Function.update_of_ne hj.1]
      · rw [List.length_cons, List.take_succ_cons, List.map_cons,
          hother i (fun h => hl.1 (List.mem_of_mem_take h)), Function.update_self]
        exact congrArg (phys :: ·) hall

/-- **Rings of one kind are set up**: the memory handed out comes to the end of the adapter's
row. -/
structure SetsUp (h : Host) (adapter : ℕ) (flag : DescFlag) (dma : ℕ → Option ℕ) (l : List ℕ)
    (h' : Host) : Prop where
  /-- The row has the rings. -/
  ukmmap : h'.ukmmap = h.ukmmap.appendAt adapter flag l
  /-- The other adapters are as they were. -/
  others : ∀ b, b ≠ adapter → h'.igb b = h.igb b
  /-- They are the adapter's. -/
  batch : Batch flag l (h.igb adapter) (h'.igb adapter)
  /-- One is registered if there are queues and the first gets its memory. -/
  nil_iff : l = [] ↔ ¬(0 < (h.igb adapter).num_queues ∧ (dma 0).isSome = true)
  /-- All are, if all get their memory. -/
  full : (∀ q < (h.igb adapter).num_queues, (dma q).isSome = true) →
    l.length = (h.igb adapter).num_queues

/-- **Setting up all tx, or all rx, rings.** -/
theorem igbSetupAllResources_eq {h : Host} (hu : h.ukmmap.Distinct) (adapter : ℕ)
    (flag : DescFlag) (dma : ℕ → Option ℕ) :
    ∃ l h', igbSetupAllResources h adapter flag dma
        = (h', decide (∀ q < (h.igb adapter).num_queues, (dma q).isSome = true))
      ∧ h.SetsUp adapter flag dma l h' := by
  obtain ⟨ring', heq, hold, hnew⟩ := setupQueues_eq hu adapter flag dma
    (List.nodup_range (n := (h.igb adapter).num_queues)) ((h.igb adapter).ring flag)
  have hlen := length_handedOut_le dma (List.range (h.igb adapter).num_queues)
  rw [List.length_range] at hlen
  rw [List.take_range, Nat.min_eq_left hlen] at hold hnew
  simp only [List.mem_range] at heq
  refine ⟨handedOut dma (List.range (h.igb adapter).num_queues), _,
    by simp only [igbSetupAllResources, heq]; rfl, rfl, fun b hb => ?_, ?_,
    handedOut_range_eq_nil, fun hall => ?_⟩
  · exact Function.update_of_ne hb _ _
  · simp only [Function.update_self]
    refine ⟨rfl, rfl, rfl, fun other hother => Function.update_of_ne hother _ _, ?_, fun hnil => ?_,
      hlen⟩
    · simp only [Function.update_self]
      exact hnew
    · simp only [Function.update_self]
      exact funext (fun i => hold i (by rw [hnil]; exact List.not_mem_nil))
  · rw [length_handedOut (fun i hi => hall i (List.mem_range.mp hi)), List.length_range]

/-- **What `igb_request_irq` does**: nothing to the rings, or it takes the queues away, or it
sets up the rings of one queue again. -/
theorem igbRequestIrq_cases {h h' : Host} (hu : h.ukmmap.Distinct) {adapter : ℕ} {req : IrqRequest}
    {irq : Bool} (heq : igbRequestIrq h adapter req = some (h', irq)) :
    (h' = h ∧ ((h.igb adapter).msix_entries = false ∨ req.msix = true))
      ∨ (h' = h.setQueues adapter 0 false ∧ irq = false ∧ req.queues = false)
      ∨ ((h.igb adapter).msix_entries = true ∧ req.msix = false ∧ req.q_vectors = true
        ∧ req.queues = true ∧ ∃ l m h₁,
          (h.setQueues adapter 1 false).SetsUp adapter .tx (req.dma .tx) l h₁
          ∧ h₁.SetsUp adapter .rx (req.dma .rx) m h') := by
  unfold igbRequestIrq at heq
  split_ifs at heq with hentries hmsix hvectors hqueues
  · exact .inl ⟨(congrArg Prod.fst (Option.some.inj heq)).symm, .inl hentries⟩
  · exact .inl ⟨(congrArg Prod.fst (Option.some.inj heq)).symm, .inr hmsix⟩
  · have heq := Option.some.inj heq
    exact .inr (.inl ⟨(congrArg Prod.fst heq).symm, (congrArg Prod.snd heq).symm, hqueues⟩)
  · obtain ⟨l, h₁, htx, hset₁⟩ := igbSetupAllResources_eq
      (h := h.setQueues adapter 1 false) hu adapter .tx (req.dma .tx)
    have hu₁ : h₁.ukmmap.Distinct := hset₁.ukmmap ▸ hu.appendAt adapter .tx l
    obtain ⟨m, h₂, hrx, hset₂⟩ := igbSetupAllResources_eq hu₁ adapter .rx (req.dma .rx)
    simp only [htx, hrx] at heq
    obtain rfl : h₂ = h' := congrArg Prod.fst (Option.some.inj heq)
    exact .inr (.inr ⟨Bool.of_not_eq_false hentries, Bool.of_not_eq_true hmsix,
      Bool.of_not_eq_false hvectors, Bool.of_not_eq_false hqueues, l, m, h₁, hset₁, hset₂⟩)

/-- **What an opening that is not refused does**: it sets up the tx rings, then, if all got their
memory, the rx rings, and then requests the interrupts. -/
theorem igbOpen_cases {h h' : Host} (hu : h.ukmmap.Distinct) {adapter : ℕ}
    {dma : DescFlag → ℕ → Option ℕ} {req : IrqRequest}
    (heq : igbOpen h adapter false dma req = some h') :
    0 < (h.igb adapter).num_queues ∧ ∃ l h₁, h.SetsUp adapter .tx (dma .tx) l h₁
      ∧ (h' = h₁.setOpen adapter false
          ∧ ¬(∀ q < (h.igb adapter).num_queues, (dma .tx q).isSome = true)
        ∨ (∀ q < (h.igb adapter).num_queues, (dma .tx q).isSome = true)
          ∧ ∃ m h₂, h₁.SetsUp adapter .rx (dma .rx) m h₂
            ∧ (h' = h₂.setOpen adapter false
                ∧ ¬(∀ q < (h.igb adapter).num_queues, (dma .rx q).isSome = true)
              ∨ (∀ q < (h.igb adapter).num_queues, (dma .rx q).isSome = true)
                ∧ ∃ h₃ irq, igbRequestIrq h₂ adapter req = some (h₃, irq)
                  ∧ h' = h₃.setOpen adapter irq)) := by
  rw [igbOpen, if_neg Bool.false_ne_true] at heq
  split_ifs at heq with hnum
  obtain ⟨l, h₁, htx, hset₁⟩ := igbSetupAllResources_eq hu adapter .tx (dma .tx)
  have hu₁ : h₁.ukmmap.Distinct := hset₁.ukmmap ▸ hu.appendAt adapter .tx l
  obtain ⟨m, h₂, hrx, hset₂⟩ := igbSetupAllResources_eq hu₁ adapter .rx (dma .rx)
  rw [hset₁.batch.num_queues] at hrx
  simp only [htx, hrx, decide_eq_false_iff_not] at heq
  refine ⟨Nat.pos_of_ne_zero hnum, l, h₁, hset₁, ?_⟩
  split_ifs at heq with hall₁ hall₂
  · obtain ⟨⟨h₃, irq⟩, hreq, hend⟩ := Option.map_eq_some_iff.mp heq
    exact .inr ⟨hall₁, m, h₂, hset₂, .inr ⟨hall₂, h₃, irq, hreq, hend.symm⟩⟩
  · exact .inr ⟨hall₁, m, h₂, hset₂, .inl ⟨(Option.some.inj heq).symm, hall₂⟩⟩
  · exact .inl ⟨(Option.some.inj heq).symm, hall₁⟩

end Host

/-! ## Every sequence of calls -/

/-- A call: a probe registers an adapter. -/
inductive UkmemCall
  | igbProbe (adapter : ℕ) (msix : Bool)
  | igbOpen (adapter : ℕ) (testing : Bool) (dma : DescFlag → ℕ → Option ℕ) (req : IrqRequest)
  | igbClose (adapter : ℕ)

namespace Host

/-- What a call does, if the kernel gets past it. -/
def call (s : IgbSetup) (h : Host) : UkmemCall → Option Host
  | .igbProbe adapter msix => some (h.igbProbe s adapter msix)
  | .igbOpen adapter testing dma req => h.igbOpen adapter testing dma req
  | .igbClose adapter => some (h.igbClose adapter)

/-- An adapter is registered. -/
def Registered (h : Host) (adapter : ℕ) : Prop :=
  ∃ a ∈ h.ukmmap.adapter, a.adapter_addr = adapter

/-- An adapter is registered once, under an address of its own, with as many queues as the
table says; registered adapters are opened and closed. -/
def Admits (s : IgbSetup) (h : Host) : UkmemCall → Prop
  | .igbProbe adapter msix => ¬h.Registered adapter ∧ (msix = true ∨ s.num = 1)
  | .igbOpen adapter _ _ _ => h.Registered adapter
  | .igbClose adapter => h.Registered adapter

/-- **Every adapter is open.** -/
def AllOpen (h : Host) : Prop :=
  ∀ a ∈ h.ukmmap.adapter, (h.igb a.adapter_addr).is_open = true

/-- An opening comes to set up the rings again, and one of them gets its memory: all rings got
theirs and MSI-X is not granted. -/
def SetsUpAgain (h : Host) (adapter : ℕ) (dma : DescFlag → ℕ → Option ℕ) (req : IrqRequest) :
    Prop :=
  (h.igb adapter).msix_entries = true
    ∧ (∀ flag, ∀ q < (h.igb adapter).num_queues, (dma flag q).isSome = true)
    ∧ req.msix = false ∧ req.q_vectors = true ∧ req.queues = true
    ∧ ∃ flag, (req.dma flag 0).isSome = true

/-- **The table has a row for the adapter, and an opening that gets memory for its first
ring finds no rings in the adapter's row and does not set them up again.** -/
def FirstOpen (h : Host) : UkmemCall → Prop
  | .igbProbe _ _ => h.ukmmap.adapter.length < maxAdapterNum
  | .igbOpen adapter testing dma req =>
    testing = false → (dma .tx 0).isSome = true →
      (∀ a ∈ h.ukmmap.adapter, a.adapter_addr = adapter → a.tx_desc_num = 0)
        ∧ ¬h.SetsUpAgain adapter dma req
  | .igbClose _ => True

end Host

/-- **Any sequence of registrations, openings and closings**, with any memory and any
interrupts. -/
def ukmemSystem (s : IgbSetup) : System Host UkmemCall where
  init h := h = Host.init
  step h c h' := h.Admits s c ∧ h.call s c = some h'

/-! ### A row and its adapter -/

/-- **The ring in use of the first queue is not the first of its kind** in the row. -/
def IgbAdapter.Late (x : IgbAdapter) (a : AdapterMem) (flag : DescFlag) : Prop :=
  ∃ before after, before ≠ [] ∧ a.desc flag = before ++ x.ring flag 0 :: after

/-- **What holds of a row and its adapter in every run.** -/
structure IgbAdapter.RowSound (s : IgbSetup) (x : IgbAdapter) (a : AdapterMem) : Prop where
  /-- The adapter has no more queues than the table says. -/
  num_le : x.num_queues ≤ s.num
  /-- It has fewer only once it was set up with as many. -/
  num : x.num_queues = s.num ∨ ∀ flag, s.num ≤ (a.desc flag).length
  /-- When it is open every queue has a ring of each kind. -/
  opened : x.is_open = true → ∀ flag, s.num ≤ (a.desc flag).length
  /-- The ring of the first queue is in the row. -/
  last : ∀ flag, a.desc flag ≠ [] → x.ring flag 0 ∈ a.desc flag
  /-- There are more rings than queues only if it is not the first. -/
  length : ∀ flag, (a.desc flag).length ≤ s.num ∨ x.Late a flag
  /-- Without tx rings a row has no rx rings. -/
  rx : a.desc .tx = [] → a.desc .rx = []

/-- **A row has the rings of one opening**, those of the first queues. -/
structure IgbAdapter.Single (s : IgbSetup) (x : IgbAdapter) (a : AdapterMem) : Prop where
  /-- The rings are the adapter's. -/
  ring : ∀ flag, a.desc flag = (List.range (a.desc flag).length).map (x.ring flag)
  /-- There are no more than the queues. -/
  length_le : ∀ flag, (a.desc flag).length ≤ s.num

section Batch

variable {s : IgbSetup} {x x' : IgbAdapter} {a : AdapterMem} {flag : DescFlag} {l : List ℕ}

theorem AdapterMem.append_desc_self (a : AdapterMem) (flag : DescFlag) (l : List ℕ) :
    (a.append flag l).desc flag = a.desc flag ++ l := by
  rw [append_desc, if_pos rfl]

theorem AdapterMem.append_desc_of_ne (a : AdapterMem) {flag other : DescFlag} (h : other ≠ flag)
    (l : List ℕ) : (a.append flag l).desc other = a.desc other := by
  rw [append_desc, if_neg h]

theorem AdapterMem.length_le_append (a : AdapterMem) (flag : DescFlag) (l : List ℕ)
    (other : DescFlag) : (a.desc other).length ≤ ((a.append flag l).desc other).length := by
  by_cases h : other = flag
  · rw [h, append_desc_self, List.length_append]
    exact Nat.le_add_right _ _
  · rw [append_desc_of_ne a h]

/-- A ring registered after others is late. -/
theorem Batch.late_of_ne_nil (hb : Batch flag l x x') (hl : l ≠ []) (ha : a.desc flag ≠ []) :
    x'.Late (a.append flag l) flag := by
  obtain ⟨rest, hrest⟩ := hb.eq_cons hl
  refine ⟨a.desc flag, rest, ha, ?_⟩
  rw [AdapterMem.append_desc_self]
  exact congrArg (a.desc flag ++ ·) hrest

/-- **Late once, late ever after.** -/
theorem Batch.late (hb : Batch flag l x x') {other : DescFlag} (h : x.Late a other) :
    x'.Late (a.append flag l) other := by
  obtain ⟨before, after, hne, hdesc⟩ := h
  by_cases ho : other = flag
  · subst ho
    by_cases hl : l = []
    · refine ⟨before, after, hne, ?_⟩
      rw [hl, a.append_nil, hdesc, hb.old hl]
    · refine hb.late_of_ne_nil hl ?_
      rw [hdesc]
      exact List.append_ne_nil_of_left_ne_nil hne _
  · exact ⟨before, after, hne, by rw [a.append_desc_of_ne ho, hdesc, hb.other other ho]⟩

theorem Batch.rowSound (hb : Batch flag l x x') (hx : x.RowSound s a)
    (hrx : flag = .rx → a.desc .tx ≠ []) : x'.RowSound s (a.append flag l) where
  num_le := hb.num_queues ▸ hx.num_le
  num := hx.num.imp hb.num_queues.trans (fun h other =>
    (h other).trans (a.length_le_append flag l other))
  opened hopen other :=
    (hx.opened (hb.is_open ▸ hopen) other).trans (a.length_le_append flag l other)
  last other hne := by
    by_cases ho : other = flag
    · subst ho
      rw [a.append_desc_self] at hne ⊢
      by_cases hl : l = []
      · rw [hl, List.append_nil] at hne ⊢
        rw [hb.old hl]
        exact hx.last other hne
      · obtain ⟨rest, hrest⟩ := hb.eq_cons hl
        exact List.mem_append_right _ (hrest ▸ List.mem_cons_self)
    · rw [a.append_desc_of_ne ho] at hne ⊢
      rw [hb.other other ho]
      exact hx.last other hne
  length other := by
    by_cases ho : other = flag
    · subst ho
      by_cases ha : a.desc other = []
      · left
        rw [a.append_desc_self, ha, List.nil_append]
        exact hb.length_le.trans hx.num_le
      · by_cases hl : l = []
        · rw [hl, a.append_nil]
          exact (hx.length other).imp_right (fun h => by
            have hlate := hb.late h
            rwa [hl, a.append_nil] at hlate)
        · exact .inr (hb.late_of_ne_nil hl ha)
    · rw [a.append_desc_of_ne ho]
      exact (hx.length other).imp_right hb.late
  rx htx := by
    cases flag with
    | tx =>
      rw [a.append_desc_self] at htx
      rw [a.append_desc_of_ne (by decide)]
      exact hx.rx (List.append_eq_nil_iff.mp htx).1
    | rx =>
      rw [a.append_desc_of_ne (by decide)] at htx
      exact absurd htx (hrx rfl)

/-- The rings of one opening, in a row that had none of their kind. -/
theorem Batch.single (hb : Batch flag l x x') (hx : x.Single s a) (hnum : x.num_queues ≤ s.num)
    (hempty : a.desc flag = [] ∨ l = []) : x'.Single s (a.append flag l) := by
  have hsame : l = [] → x'.Single s (a.append flag l) := fun hl => by
    rw [hl, a.append_nil]
    refine ⟨fun other => ?_, hx.length_le⟩
    by_cases ho : other = flag
    · rw [ho, hb.old hl]
      exact hx.ring flag
    · rw [hb.other other ho]
      exact hx.ring other
  rcases hempty with ha | hl
  · refine ⟨fun other => ?_, fun other => ?_⟩
    · by_cases ho : other = flag
      · rw [ho, a.append_desc_self, ha, List.nil_append]
        exact hb.new
      · rw [a.append_desc_of_ne ho, hb.other other ho]
        exact hx.ring other
    · by_cases ho : other = flag
      · rw [ho, a.append_desc_self, ha, List.nil_append]
        exact hb.length_le.trans hnum
      · rw [a.append_desc_of_ne ho]
        exact hx.length_le other
  · exact hsame hl

end Batch

namespace Host

/-! ### The table and the adapters -/

/-- **What holds of the table in every run.** -/
structure Sound (s : IgbSetup) (h : Host) : Prop where
  /-- No two rows have one address. -/
  distinct : h.ukmmap.Distinct
  /-- The registers of an adapter have 128 pages. -/
  regs_pages : h.ukmmap.regs_pages = 128
  /-- A ring has one page. -/
  desc_pages : h.ukmmap.desc_pages = 1
  /-- The number of queues is that of the adapters. -/
  queue_num : h.ukmmap.adapter ≠ [] → h.ukmmap.queue_num = s.num
  /-- Its rows are sound. -/
  row : ∀ a ∈ h.ukmmap.adapter, (h.igb a.adapter_addr).RowSound s a
  /-- An adapter is not open before it is registered. -/
  closed : ∀ adapter, ¬h.Registered adapter → (h.igb adapter).is_open = false

/-- **What holds if every opening finds an empty row**: a row has the rings of one opening. -/
def OneOpening (s : IgbSetup) (h : Host) : Prop :=
  h.ukmmap.adapter.length ≤ maxAdapterNum
    ∧ ∀ a ∈ h.ukmmap.adapter, (h.igb a.adapter_addr).Single s a

/-- **A row has rings before the one in use**, and there are queues. -/
def Stale (s : IgbSetup) (h : Host) : Prop :=
  0 < s.num ∧ ∃ a ∈ h.ukmmap.adapter, ∃ flag, (h.igb a.adapter_addr).Late a flag

/-- Something holds of the row of an adapter. -/
def Row (h : Host) (adapter : ℕ) (P : AdapterMem → Prop) : Prop :=
  ∀ a ∈ h.ukmmap.adapter, a.adapter_addr = adapter → P a

variable {s : IgbSetup} {h h' : Host} {adapter : ℕ}

/-- **An adapter and its row change**: the row gets some rings, the others are as they were. -/
structure Changes (h : Host) (adapter : ℕ) (flag : DescFlag) (l : List ℕ) (h' : Host) : Prop where
  /-- The row gets the rings. -/
  ukmmap : h'.ukmmap = h.ukmmap.appendAt adapter flag l
  /-- The other adapters are as they were. -/
  others : ∀ b, b ≠ adapter → h'.igb b = h.igb b

theorem SetsUp.changes {flag : DescFlag} {dma : ℕ → Option ℕ} {l : List ℕ}
    (hset : h.SetsUp adapter flag dma l h') : h.Changes adapter flag l h' :=
  ⟨hset.ukmmap, hset.others⟩

theorem changes_setOpen (h : Host) (adapter : ℕ) (is_open : Bool) :
    h.Changes adapter .tx [] (h.setOpen adapter is_open) :=
  ⟨(h.ukmmap.appendAt_nil adapter .tx).symm, fun _ hb => h.setOpen_igb_of_ne hb is_open⟩

theorem changes_setQueues (h : Host) (adapter num_queues : ℕ) (msix_entries : Bool) :
    h.Changes adapter .tx [] (h.setQueues adapter num_queues msix_entries) :=
  ⟨(h.ukmmap.appendAt_nil adapter .tx).symm,
    fun _ hb => h.setQueues_igb_of_ne hb num_queues msix_entries⟩

section Changes

variable {flag : DescFlag} {l : List ℕ}

/-- **What holds of every row and its adapter** holds after a change if it does of the adapter
that changed. -/
theorem Changes.forall_row (hc : h.Changes adapter flag l h')
    {P : IgbAdapter → AdapterMem → Prop}
    (hP : ∀ a ∈ h.ukmmap.adapter, P (h.igb a.adapter_addr) a)
    (hrow : h.Row adapter (fun a => P (h.igb adapter) a → P (h'.igb adapter) (a.append flag l))) :
    ∀ a ∈ h'.ukmmap.adapter, P (h'.igb a.adapter_addr) a := by
  intro a ha
  rw [hc.ukmmap] at ha
  obtain ⟨b, hb, ⟨haddr, rfl⟩ | ⟨haddr, rfl⟩⟩ := Ukmem.mem_appendAt.mp ha
  · rw [AdapterMem.append_adapter_addr, haddr]
    exact hrow b hb haddr (haddr ▸ hP b hb)
  · rw [hc.others _ haddr]
    exact hP a hb

/-- The same of one row. -/
theorem Changes.exists_row (hc : h.Changes adapter flag l h')
    {P : IgbAdapter → AdapterMem → Prop}
    (hP : ∃ a ∈ h.ukmmap.adapter, P (h.igb a.adapter_addr) a)
    (hrow : h.Row adapter (fun a => P (h.igb adapter) a → P (h'.igb adapter) (a.append flag l))) :
    ∃ a ∈ h'.ukmmap.adapter, P (h'.igb a.adapter_addr) a := by
  obtain ⟨a, ha, hPa⟩ := hP
  by_cases haddr : a.adapter_addr = adapter
  · refine ⟨a.append flag l, ?_, ?_⟩
    · rw [hc.ukmmap]
      exact Ukmem.mem_appendAt.mpr ⟨a, ha, .inl ⟨haddr, rfl⟩⟩
    · rw [AdapterMem.append_adapter_addr, haddr]
      exact hrow a ha haddr (haddr ▸ hPa)
  · refine ⟨a, ?_, ?_⟩
    · rw [hc.ukmmap]
      exact Ukmem.mem_appendAt.mpr ⟨a, ha, .inr ⟨haddr, rfl⟩⟩
    · rw [hc.others _ haddr]
      exact hPa

/-- What holds of the adapter's row after a change. -/
theorem Changes.row (hc : h.Changes adapter flag l h') {P : AdapterMem → Prop}
    (hP : h.Row adapter (fun a => P (a.append flag l))) : h'.Row adapter P := by
  intro a ha haddr
  rw [hc.ukmmap] at ha
  obtain ⟨b, hb, ⟨haddr', rfl⟩ | ⟨haddr', rfl⟩⟩ := Ukmem.mem_appendAt.mp ha
  · exact hP b hb haddr'
  · exact absurd haddr haddr'

/-- The adapters registered are those of before. -/
theorem Changes.registered (hc : h.Changes adapter flag l h') {b : ℕ} :
    h'.Registered b ↔ h.Registered b := by
  constructor
  · rintro ⟨a, ha, haddr⟩
    rw [hc.ukmmap] at ha
    obtain ⟨b', hb', ⟨-, rfl⟩ | ⟨-, rfl⟩⟩ := Ukmem.mem_appendAt.mp ha
    · exact ⟨b', hb', (b'.append_adapter_addr flag l).symm.trans haddr⟩
    · exact ⟨a, hb', haddr⟩
  · rintro hb
    exact hc.exists_row (P := fun _ a => a.adapter_addr = b) hb (fun a _ _ h =>
      (a.append_adapter_addr flag l).trans h)

theorem Changes.length (hc : h.Changes adapter flag l h') :
    h'.ukmmap.adapter.length = h.ukmmap.adapter.length := by
  rw [hc.ukmmap, Ukmem.length_appendAt]

theorem Changes.sound (hc : h.Changes adapter flag l h') (hs : h.Sound s)
    (hreg : h.Registered adapter)
    (hrow : h.Row adapter (fun a => (h.igb adapter).RowSound s a →
      (h'.igb adapter).RowSound s (a.append flag l))) : h'.Sound s where
  distinct := hc.ukmmap ▸ hs.distinct.appendAt adapter flag l
  regs_pages := (congrArg Ukmem.regs_pages hc.ukmmap).trans hs.regs_pages
  desc_pages := (congrArg Ukmem.desc_pages hc.ukmmap).trans hs.desc_pages
  queue_num hne := by
    refine (congrArg Ukmem.queue_num hc.ukmmap).trans (hs.queue_num (fun hnil => hne ?_))
    rw [← List.length_eq_zero_iff, hc.length, hnil, List.length_nil]
  row := hc.forall_row hs.row hrow
  closed b hb := by
    have hne : b ≠ adapter := fun he => hb (hc.registered.mpr (he ▸ hreg))
    rw [hc.others b hne]
    exact hs.closed b (fun h => hb (hc.registered.mpr h))

end Changes

/-! ### Registering and closing an adapter -/

theorem sound_init (s : IgbSetup) : init.Sound s where
  distinct := List.nodup_nil
  regs_pages := rfl
  desc_pages := rfl
  queue_num hne := absurd rfl hne
  row _ ha := absurd ha List.not_mem_nil
  closed _ _ := rfl

theorem mem_igbProbe {a : AdapterMem} {msix : Bool} :
    a ∈ (h.igbProbe s adapter msix).ukmmap.adapter
      ↔ a ∈ h.ukmmap.adapter ∨ a = ⟨adapter, [], []⟩ := by
  show a ∈ h.ukmmap.adapter ++ [⟨adapter, [], []⟩] ↔ _
  rw [List.mem_append, List.mem_singleton]

/-- The rows of before and their adapters are as they were, and the new row is empty. -/
theorem forall_row_igbProbe {msix : Bool} {P : IgbAdapter → AdapterMem → Prop}
    (hnew : ¬h.Registered adapter) (hP : ∀ a ∈ h.ukmmap.adapter, P (h.igb a.adapter_addr) a)
    (hempty : P ((h.igbProbe s adapter msix).igb adapter) ⟨adapter, [], []⟩) :
    ∀ a ∈ (h.igbProbe s adapter msix).ukmmap.adapter,
      P ((h.igbProbe s adapter msix).igb a.adapter_addr) a := by
  intro a ha
  rcases mem_igbProbe.mp ha with ha | rfl
  · have hne : a.adapter_addr ≠ adapter := fun he => hnew ⟨a, ha, he⟩
    rw [igbProbe, setQueues_igb_of_ne _ hne]
    exact hP a ha
  · exact hempty

theorem Sound.igbProbe (hs : h.Sound s) (hnew : ¬h.Registered adapter) {msix : Bool}
    (hmsix : msix = true ∨ s.num = 1) : (h.igbProbe s adapter msix).Sound s where
  distinct := by
    show ((h.ukmmap.adapter ++ [(⟨adapter, [], []⟩ : AdapterMem)]).map
      AdapterMem.adapter_addr).Nodup
    rw [List.map_append, List.nodup_append]
    refine ⟨hs.distinct, List.nodup_singleton _, fun x hx y hy hxy => hnew ?_⟩
    obtain ⟨a, ha, rfl⟩ := List.mem_map.mp hx
    exact ⟨a, ha, hxy.trans (List.mem_singleton.mp hy)⟩
  regs_pages := hs.regs_pages
  desc_pages := hs.desc_pages
  queue_num _ := rfl
  row := by
    refine forall_row_igbProbe hnew hs.row ?_
    have hnum : (if msix then s.num else 1) = s.num := by
      rcases hmsix with hmsix | hnum
      · exact if_pos hmsix
      · rw [hnum, ite_self]
    have hself : (h.igbProbe s adapter msix).igb adapter
        = { h.igb adapter with num_queues := s.num, msix_entries := msix } := by
      rw [Host.igbProbe, setQueues_igb_self, hnum]
    rw [hself]
    refine ⟨le_rfl, .inl rfl, fun hopen => ?_, fun flag hne => ?_, fun flag => .inl ?_,
      fun _ => rfl⟩
    · exact absurd ((hs.closed adapter hnew).symm.trans hopen) Bool.false_ne_true
    · cases flag <;> exact absurd rfl hne
    · cases flag <;> exact Nat.zero_le _
  closed b hb := by
    by_cases hba : b = adapter
    · exact absurd ⟨_, mem_igbProbe.mpr (.inr rfl), hba.symm⟩ hb
    · rw [Host.igbProbe, setQueues_igb_of_ne _ hba]
      exact hs.closed b (fun ⟨a, ha, haddr⟩ => hb ⟨a, mem_igbProbe.mpr (.inl ha), haddr⟩)

theorem Sound.setOpen (hs : h.Sound s) (hreg : h.Registered adapter) {is_open : Bool}
    (hlen : is_open = true → h.Row adapter (fun a => ∀ flag, s.num ≤ (a.desc flag).length)) :
    (h.setOpen adapter is_open).Sound s := by
  refine (h.changes_setOpen adapter is_open).sound hs hreg (fun a ha haddr hx => ?_)
  rw [a.append_nil, setOpen_igb_self]
  exact ⟨hx.num_le, hx.num, fun ho => hlen ho a ha haddr, hx.last, hx.length, hx.rx⟩

theorem Sound.setQueues (hs : h.Sound s) (hreg : h.Registered adapter) {num_queues : ℕ}
    (hnum : num_queues ≤ s.num) (msix_entries : Bool)
    (hlen : h.Row adapter (fun a => ∀ flag, s.num ≤ (a.desc flag).length)) :
    (h.setQueues adapter num_queues msix_entries).Sound s := by
  refine (h.changes_setQueues adapter num_queues msix_entries).sound hs hreg
    (fun a ha haddr hx => ?_)
  rw [a.append_nil, setQueues_igb_self]
  exact ⟨hnum, .inr (hlen a ha haddr), hx.opened, hx.last, hx.length, hx.rx⟩

theorem SetsUp.sound {flag : DescFlag} {dma : ℕ → Option ℕ} {l : List ℕ}
    (hset : h.SetsUp adapter flag dma l h') (hs : h.Sound s) (hreg : h.Registered adapter)
    (hrx : flag = .rx → h.Row adapter (fun a => a.desc .tx ≠ [])) : h'.Sound s :=
  hset.changes.sound hs hreg (fun a ha haddr hx =>
    hset.batch.rowSound hx (fun hflag => hrx hflag a ha haddr))

/-! ### Opening an adapter -/

section Opening

variable {dma : DescFlag → ℕ → Option ℕ} {req : IrqRequest} {l m : List ℕ} {h₁ h₂ : Host}

/-- After the tx rings the row has one, if the first queue's got its memory. -/
theorem SetsUp.tx_ne_nil {dma : ℕ → Option ℕ} (hset : h.SetsUp adapter .tx dma l h₁)
    (hnum : 0 < (h.igb adapter).num_queues) (hdma : (dma 0).isSome = true) :
    h₁.Row adapter (fun a => a.desc .tx ≠ []) := by
  refine hset.changes.row (fun a _ _ => ?_)
  show (a.append .tx l).desc .tx ≠ []
  rw [a.append_desc_self]
  exact List.append_ne_nil_of_right_ne_nil _ (fun hl => hset.nil_iff.mp hl ⟨hnum, hdma⟩)

/-- Rings stay in the row. -/
theorem Changes.le_length {flag : DescFlag} (hc : h.Changes adapter flag l h') {n : ℕ}
    (hlen : h.Row adapter (fun a => ∀ other, n ≤ (a.desc other).length)) :
    h'.Row adapter (fun a => ∀ other, n ≤ (a.desc other).length) :=
  hc.row (fun a ha haddr other => (hlen a ha haddr other).trans (a.length_le_append flag l other))

/-- After the rings of both kinds every queue has its own. -/
theorem Sound.le_length (hs : h.Sound s) {dma₁ dma₂ : ℕ → Option ℕ}
    (hset₁ : h.SetsUp adapter .tx dma₁ l h₁) (hset₂ : h₁.SetsUp adapter .rx dma₂ m h₂)
    (hall₁ : ∀ q < (h.igb adapter).num_queues, (dma₁ q).isSome = true)
    (hall₂ : ∀ q < (h.igb adapter).num_queues, (dma₂ q).isSome = true) :
    h₂.Row adapter (fun a => ∀ flag, s.num ≤ (a.desc flag).length) := by
  refine hset₂.changes.row (hset₁.changes.row (fun a ha haddr flag => ?_))
  have hrow := hs.row a ha
  rw [haddr] at hrow
  rcases hrow.num with hnum | hlen
  · cases flag
    · rw [AdapterMem.append_desc_of_ne _ (by decide), a.append_desc_self, List.length_append,
        hset₁.full hall₁, hnum]
      exact Nat.le_add_left _ _
    · rw [AdapterMem.append_desc_self, List.length_append,
        hset₂.full (hset₁.batch.num_queues.symm ▸ hall₂), hset₁.batch.num_queues, hnum]
      exact Nat.le_add_left _ _
  · exact (hlen flag).trans ((a.length_le_append .tx l flag).trans
      (AdapterMem.length_le_append _ .rx m flag))

/-- **Requesting the interrupts.** -/
theorem Sound.igbRequestIrq (hs : h.Sound s) (hreg : h.Registered adapter) (hpos : 0 < s.num)
    (hlen : h.Row adapter (fun a => ∀ flag, s.num ≤ (a.desc flag).length)) {irq : Bool}
    (heq : h.igbRequestIrq adapter req = some (h', irq)) :
    h'.Sound s ∧ h'.Registered adapter
      ∧ h'.Row adapter (fun a => ∀ flag, s.num ≤ (a.desc flag).length) := by
  rcases igbRequestIrq_cases hs.distinct heq with ⟨rfl, -⟩ | ⟨rfl, -, -⟩ |
    ⟨-, -, -, -, l, m, h₁, hset₁, hset₂⟩
  · exact ⟨hs, hreg, hlen⟩
  · exact ⟨hs.setQueues hreg (Nat.zero_le _) false hlen, hreg, hlen⟩
  · have hs₀ := hs.setQueues hreg hpos false hlen
    have hlen₁ := hset₁.changes.le_length (n := s.num) hlen
    have hreg₁ : h₁.Registered adapter := hset₁.changes.registered.mpr hreg
    have hs₁ := hset₁.sound hs₀ hreg (fun h => absurd h (by decide))
    refine ⟨hset₂.sound hs₁ hreg₁ (fun _ a ha haddr hnil => ?_),
      hset₂.changes.registered.mpr hreg₁, hset₂.changes.le_length hlen₁⟩
    have hle := hlen₁ a ha haddr .tx
    rw [hnil] at hle
    exact absurd hle (not_le.mpr hpos)

theorem Sound.igbOpen (hs : h.Sound s) (hreg : h.Registered adapter)
    (heq : h.igbOpen adapter false dma req = some h') : h'.Sound s := by
  obtain ⟨hnum, l, h₁, hset₁, hcases⟩ := igbOpen_cases hs.distinct heq
  have hs₁ := hset₁.sound hs hreg (fun h => absurd h (by decide))
  have hreg₁ : h₁.Registered adapter := hset₁.changes.registered.mpr hreg
  rcases hcases with ⟨rfl, -⟩ | ⟨hall₁, m, h₂, hset₂, hcases⟩
  · exact hs₁.setOpen hreg₁ (fun h => absurd h Bool.false_ne_true)
  · have hs₂ := hset₂.sound hs₁ hreg₁ (fun _ => hset₁.tx_ne_nil hnum (hall₁ 0 hnum))
    have hreg₂ : h₂.Registered adapter := hset₂.changes.registered.mpr hreg₁
    rcases hcases with ⟨rfl, -⟩ | ⟨hall₂, h₃, irq, hirq, rfl⟩
    · exact hs₂.setOpen hreg₂ (fun h => absurd h Bool.false_ne_true)
    · have hlen := hs.le_length hset₁ hset₂ hall₁ hall₂
      obtain ⟨a, ha, haddr⟩ := hreg
      have hle := (hs.row a ha).num_le
      rw [haddr] at hle
      obtain ⟨hs₃, hreg₃, hlen₃⟩ := hs₂.igbRequestIrq hreg₂ (lt_of_lt_of_le hnum hle) hlen hirq
      exact hs₃.setOpen hreg₃ (fun _ => hlen₃)

end Opening

/-! ### One opening a row -/

theorem Changes.oneOpening {flag : DescFlag} {l : List ℕ} (hc : h.Changes adapter flag l h')
    (ho : h.OneOpening s)
    (hrow : h.Row adapter (fun a => (h.igb adapter).Single s a →
      (h'.igb adapter).Single s (a.append flag l))) : h'.OneOpening s :=
  ⟨hc.length.trans_le ho.1, hc.forall_row ho.2 hrow⟩

theorem OneOpening.setOpen (ho : h.OneOpening s) (adapter : ℕ) (is_open : Bool) :
    (h.setOpen adapter is_open).OneOpening s := by
  refine (h.changes_setOpen adapter is_open).oneOpening ho (fun a _ _ hx => ?_)
  rw [a.append_nil, setOpen_igb_self]
  exact ⟨hx.ring, hx.length_le⟩

theorem OneOpening.setQueues (ho : h.OneOpening s) (adapter num_queues : ℕ)
    (msix_entries : Bool) : (h.setQueues adapter num_queues msix_entries).OneOpening s := by
  refine (h.changes_setQueues adapter num_queues msix_entries).oneOpening ho (fun a _ _ hx => ?_)
  rw [a.append_nil, setQueues_igb_self]
  exact ⟨hx.ring, hx.length_le⟩

/-- Rings are set up in an empty row, or none is. -/
theorem SetsUp.oneOpening {flag : DescFlag} {dma : ℕ → Option ℕ} {l : List ℕ}
    (hset : h.SetsUp adapter flag dma l h') (ho : h.OneOpening s)
    (hnum : (h.igb adapter).num_queues ≤ s.num)
    (hempty : h.Row adapter (fun a => a.desc flag = []) ∨ l = []) : h'.OneOpening s :=
  hset.changes.oneOpening ho (fun a ha haddr hx =>
    hset.batch.single hx hnum (hempty.imp_left (fun h => h a ha haddr)))

section Opening

variable {dma : DescFlag → ℕ → Option ℕ} {req : IrqRequest}

/-- **Requesting the interrupts**, if no ring is set up again. -/
theorem OneOpening.igbRequestIrq (ho : h.OneOpening s) (hu : h.ukmmap.Distinct) (hpos : 0 < s.num)
    {irq : Bool} (heq : h.igbRequestIrq adapter req = some (h', irq))
    (hagain : ¬((h.igb adapter).msix_entries = true ∧ req.msix = false ∧ req.q_vectors = true
      ∧ req.queues = true ∧ ∃ flag, (req.dma flag 0).isSome = true)) : h'.OneOpening s := by
  rcases igbRequestIrq_cases hu heq with ⟨rfl, -⟩ | ⟨rfl, -, -⟩ |
    ⟨hentries, hmsix, hvectors, hqueues, l, m, h₁, hset₁, hset₂⟩
  · exact ho
  · exact ho.setQueues adapter 0 false
  · have hnone : ∀ flag, ¬(req.dma flag 0).isSome = true := fun flag hflag =>
      hagain ⟨hentries, hmsix, hvectors, hqueues, flag, hflag⟩
    have hnum : ((h.setQueues adapter 1 false).igb adapter).num_queues ≤ s.num := by
      rw [setQueues_igb_self]
      exact hpos
    have ho₁ := hset₁.oneOpening (ho.setQueues adapter 1 false) hnum
      (.inr (hset₁.nil_iff.mpr (fun h => hnone .tx h.2)))
    exact hset₂.oneOpening ho₁ (hset₁.batch.num_queues ▸ hnum)
      (.inr (hset₂.nil_iff.mpr (fun h => hnone .rx h.2)))

/-- **An opening that finds an empty row and does not set up its rings again** leaves it with the
rings of one opening. -/
theorem OneOpening.igbOpen (ho : h.OneOpening s) (hs : h.Sound s) (hreg : h.Registered adapter)
    (heq : h.igbOpen adapter false dma req = some h')
    (hfirst : h.FirstOpen (.igbOpen adapter false dma req)) : h'.OneOpening s := by
  obtain ⟨hnum, l, h₁, hset₁, hcases⟩ := igbOpen_cases hs.distinct heq
  have hle : (h.igb adapter).num_queues ≤ s.num := by
    obtain ⟨a, ha, haddr⟩ := hreg
    exact haddr ▸ (hs.row a ha).num_le
  by_cases hdma : (dma .tx 0).isSome = true
  · obtain ⟨hempty, hagain⟩ := hfirst rfl hdma
    have htx : h.Row adapter (fun a => a.desc .tx = []) := fun a ha haddr =>
      List.eq_nil_of_length_eq_zero (hempty a ha haddr)
    have hrx : h₁.Row adapter (fun a => a.desc .rx = []) := hset₁.changes.row (fun a ha haddr =>
      (a.append_desc_of_ne (by decide) l).trans ((hs.row a ha).rx (htx a ha haddr)))
    have ho₁ := hset₁.oneOpening ho hle (.inl htx)
    rcases hcases with ⟨rfl, -⟩ | ⟨hall₁, m, h₂, hset₂, hcases⟩
    · exact ho₁.setOpen adapter false
    · have ho₂ := hset₂.oneOpening ho₁ (hset₁.batch.num_queues ▸ hle) (.inl hrx)
      rcases hcases with ⟨rfl, -⟩ | ⟨hall₂, h₃, irq, hirq, rfl⟩
      · exact ho₂.setOpen adapter false
      · have hu₂ : h₂.ukmmap.Distinct := by
          rw [hset₂.ukmmap, hset₁.ukmmap]
          exact (hs.distinct.appendAt adapter .tx l).appendAt adapter .rx m
        refine (ho₂.igbRequestIrq hu₂ (lt_of_lt_of_le hnum hle) hirq (fun h => hagain ?_)).setOpen
          adapter irq
        obtain ⟨hentries, hmsix, hvectors, hqueues, hflag⟩ := h
        rw [hset₂.batch.msix_entries, hset₁.batch.msix_entries] at hentries
        exact ⟨hentries, fun flag => by cases flag <;> assumption, hmsix, hvectors, hqueues, hflag⟩
  · -- the first tx ring gets no memory, and nothing is registered
    rcases hcases with ⟨rfl, -⟩ | ⟨hall₁, -⟩
    · exact (hset₁.oneOpening ho hle (.inr (hset₁.nil_iff.mpr (fun h => hdma h.2)))).setOpen
        adapter false
    · exact absurd (hall₁ 0 hnum) hdma

end Opening

/-! ### Rings that are not in use -/

theorem Changes.stale {flag : DescFlag} {l : List ℕ} (hc : h.Changes adapter flag l h')
    (hstale : h.Stale s)
    (hrow : h.Row adapter (fun a => ∀ other, (h.igb adapter).Late a other →
      (h'.igb adapter).Late (a.append flag l) other)) : h'.Stale s :=
  ⟨hstale.1, hc.exists_row (P := fun x a => ∃ other, x.Late a other) hstale.2
    (fun a ha haddr ⟨other, hlate⟩ => ⟨other, hrow a ha haddr other hlate⟩)⟩

theorem Stale.setOpen (hstale : h.Stale s) (adapter : ℕ) (is_open : Bool) :
    (h.setOpen adapter is_open).Stale s := by
  refine (h.changes_setOpen adapter is_open).stale hstale (fun a _ _ other hlate => ?_)
  rw [a.append_nil, setOpen_igb_self]
  exact hlate

theorem Stale.setQueues (hstale : h.Stale s) (adapter num_queues : ℕ) (msix_entries : Bool) :
    (h.setQueues adapter num_queues msix_entries).Stale s := by
  refine (h.changes_setQueues adapter num_queues msix_entries).stale hstale
    (fun a _ _ other hlate => ?_)
  rw [a.append_nil, setQueues_igb_self]
  exact hlate

theorem SetsUp.stale {flag : DescFlag} {dma : ℕ → Option ℕ} {l : List ℕ}
    (hset : h.SetsUp adapter flag dma l h') (hstale : h.Stale s) : h'.Stale s :=
  hset.changes.stale hstale (fun _ _ _ _ hlate => hset.batch.late hlate)

/-- A row that has rings gets more. -/
theorem SetsUp.stale_of_ne_nil {flag : DescFlag} {dma : ℕ → Option ℕ} {l : List ℕ}
    (hset : h.SetsUp adapter flag dma l h') (hpos : 0 < s.num) (hl : l ≠ []) {a : AdapterMem}
    (ha : a ∈ h.ukmmap.adapter) (haddr : a.adapter_addr = adapter) (hne : a.desc flag ≠ []) :
    h'.Stale s := by
  refine ⟨hpos, a.append flag l, ?_, flag, ?_⟩
  · rw [hset.ukmmap]
    exact Ukmem.mem_appendAt.mpr ⟨a, ha, .inl ⟨haddr, rfl⟩⟩
  · rw [a.append_adapter_addr, haddr]
    exact hset.batch.late_of_ne_nil hl hne

section Opening

variable {dma : DescFlag → ℕ → Option ℕ} {req : IrqRequest}

theorem Stale.igbRequestIrq (hstale : h.Stale s) (hu : h.ukmmap.Distinct) {irq : Bool}
    (heq : h.igbRequestIrq adapter req = some (h', irq)) : h'.Stale s := by
  rcases igbRequestIrq_cases hu heq with ⟨rfl, -⟩ | ⟨rfl, -, -⟩ |
    ⟨-, -, -, -, l, m, h₁, hset₁, hset₂⟩
  · exact hstale
  · exact hstale.setQueues adapter 0 false
  · exact hset₂.stale (hset₁.stale (hstale.setQueues adapter 1 false))

/-- **Setting up the rings of one queue again**, in a row that has rings. -/
theorem stale_of_setsUpAgain (hu : h.ukmmap.Distinct) (hpos : 0 < s.num) {irq : Bool}
    (heq : h.igbRequestIrq adapter req = some (h', irq)) {a : AdapterMem}
    (ha : a ∈ h.ukmmap.adapter) (haddr : a.adapter_addr = adapter)
    (hlen : ∀ flag, s.num ≤ (a.desc flag).length)
    (hentries : (h.igb adapter).msix_entries = true) (hmsix : req.msix = false)
    (hqueues : req.queues = true) {flag : DescFlag} (hflag : (req.dma flag 0).isSome = true) :
    h'.Stale s := by
  have hne : ∀ other, a.desc other ≠ [] := fun other hnil => by
    have hle := hlen other
    rw [hnil] at hle
    exact absurd hle (not_le.mpr hpos)
  rcases igbRequestIrq_cases hu heq with ⟨-, hgranted⟩ | ⟨-, -, hno⟩ |
    ⟨-, -, -, -, l, m, h₁, hset₁, hset₂⟩
  · rw [hentries, hmsix] at hgranted
    exact absurd hgranted (by decide)
  · rw [hqueues] at hno
    exact absurd hno (by decide)
  · have hone : ((h.setQueues adapter 1 false).igb adapter).num_queues = 1 := by
      rw [setQueues_igb_self]
    cases flag with
    | tx =>
      have hl : l ≠ [] := fun hl => hset₁.nil_iff.mp hl ⟨hone.symm ▸ Nat.one_pos, hflag⟩
      exact hset₂.stale (hset₁.stale_of_ne_nil hpos hl ha haddr (hne .tx))
    | rx =>
      have hm : m ≠ [] := fun hm => hset₂.nil_iff.mp hm
        ⟨(hset₁.batch.num_queues.trans hone).symm ▸ Nat.one_pos, hflag⟩
      refine hset₂.stale_of_ne_nil hpos hm (a := a.append .tx l) ?_
        ((a.append_adapter_addr .tx l).trans haddr) ?_
      · rw [hset₁.ukmmap]
        exact Ukmem.mem_appendAt.mpr ⟨a, ha, .inl ⟨haddr, rfl⟩⟩
      · rw [a.append_desc_of_ne (by decide)]
        exact hne .rx

/-- What is not in use stays so, and **an opening that finds rings or sets them up again** leaves
some that are not in use. -/
theorem stale_igbOpen (hs : h.Sound s) (hreg : h.Registered adapter)
    (heq : h.igbOpen adapter false dma req = some h')
    (hstale : h.Stale s ∨ ¬h.FirstOpen (.igbOpen adapter false dma req)) : h'.Stale s := by
  obtain ⟨hnum, l, h₁, hset₁, hcases⟩ := igbOpen_cases hs.distinct heq
  have hu₁ : h₁.ukmmap.Distinct := hset₁.ukmmap ▸ hs.distinct.appendAt adapter .tx l
  have hpos : 0 < s.num := by
    obtain ⟨a, ha, haddr⟩ := hreg
    exact lt_of_lt_of_le hnum (haddr ▸ (hs.row a ha).num_le)
  -- rings that are not in use after the tx rings are there to the end
  have hrest : h₁.Stale s → h'.Stale s := by
    intro hstale₁
    rcases hcases with ⟨rfl, -⟩ | ⟨-, m, h₂, hset₂, hcases⟩
    · exact hstale₁.setOpen adapter false
    · have hstale₂ := hset₂.stale hstale₁
      rcases hcases with ⟨rfl, -⟩ | ⟨-, h₃, irq, hirq, rfl⟩
      · exact hstale₂.setOpen adapter false
      · exact (hstale₂.igbRequestIrq (hset₂.ukmmap ▸ hu₁.appendAt adapter .rx m) hirq).setOpen
          adapter irq
  rcases hstale with hstale | hfirst
  · exact hrest (hset₁.stale hstale)
  · obtain ⟨hdma, hnot⟩ : (dma .tx 0).isSome = true ∧ ¬((∀ a ∈ h.ukmmap.adapter,
        a.adapter_addr = adapter → a.tx_desc_num = 0) ∧ ¬h.SetsUpAgain adapter dma req) := by
      by_contra hcon
      exact hfirst (fun _ hdma => not_not.mp (fun hn => hcon ⟨hdma, hn⟩))
    by_cases hempty : ∀ a ∈ h.ukmmap.adapter, a.adapter_addr = adapter → a.tx_desc_num = 0
    · obtain ⟨hentries, hall, hmsix, -, hqueues, flag, hflag⟩ :=
        not_not.mp (not_and.mp hnot hempty)
      rcases hcases with ⟨-, hnot₁⟩
        | ⟨hall₁, m, h₂, hset₂, ⟨-, hnot₂⟩ | ⟨hall₂, h₃, irq, hirq, rfl⟩⟩
      · exact absurd (hall .tx) hnot₁
      · exact absurd (hall .rx) hnot₂
      · have hlen := hs.le_length hset₁ hset₂ hall₁ hall₂
        obtain ⟨a, ha, haddr⟩ :=
          hset₂.changes.registered.mpr (hset₁.changes.registered.mpr hreg)
        refine (stale_of_setsUpAgain (hset₂.ukmmap ▸ hu₁.appendAt adapter .rx m) hpos hirq ha haddr
          (hlen a ha haddr) ?_ hmsix hqueues hflag).setOpen adapter irq
        rw [hset₂.batch.msix_entries, hset₁.batch.msix_entries]
        exact hentries
    · obtain ⟨a, ha, haddr, hne⟩ : ∃ a ∈ h.ukmmap.adapter,
          a.adapter_addr = adapter ∧ a.tx_desc_num ≠ 0 := by
        push Not at hempty
        exact hempty
      exact hrest (hset₁.stale_of_ne_nil hpos (fun hl => hset₁.nil_iff.mp hl ⟨hnum, hdma⟩) ha haddr
        (fun hnil => hne (congrArg List.length hnil)))

end Opening

/-! ### Every call -/

theorem Sound.call (hs : h.Sound s) {c : UkmemCall} (hc : h.Admits s c)
    (heq : h.call s c = some h') : h'.Sound s := by
  cases c with
  | igbProbe adapter msix => exact Option.some.inj heq ▸ hs.igbProbe hc.1 hc.2
  | igbOpen adapter testing dma req =>
    cases testing with
    | true => exact Option.some.inj heq ▸ hs
    | false => exact hs.igbOpen hc heq
  | igbClose adapter =>
    exact Option.some.inj heq ▸ hs.setOpen hc (fun h => absurd h Bool.false_ne_true)

/-- **An opening that finds an empty row keeps to one opening a row.** -/
theorem OneOpening.call (ho : h.OneOpening s) (hs : h.Sound s) {c : UkmemCall}
    (hc : h.Admits s c) (heq : h.call s c = some h') (hfirst : h.FirstOpen c) :
    h'.OneOpening s := by
  cases c with
  | igbProbe adapter msix =>
    obtain rfl := Option.some.inj heq
    refine ⟨?_, forall_row_igbProbe hc.1 ho.2 ⟨fun flag => ?_, fun flag => ?_⟩⟩
    · show (h.ukmmap.adapter ++ [_]).length ≤ _
      rw [List.length_append]
      exact hfirst
    · cases flag <;> rfl
    · cases flag <;> exact Nat.zero_le _
  | igbOpen adapter testing dma req =>
    cases testing with
    | true => exact Option.some.inj heq ▸ ho
    | false => exact ho.igbOpen hs hc heq hfirst
  | igbClose adapter => exact Option.some.inj heq ▸ ho.setOpen adapter false

/-- **Rings that are not in use stay in the table.** -/
theorem Stale.call (hstale : h.Stale s) (hs : h.Sound s) {c : UkmemCall} (hc : h.Admits s c)
    (heq : h.call s c = some h') : h'.Stale s := by
  cases c with
  | igbProbe adapter msix =>
    obtain rfl := Option.some.inj heq
    obtain ⟨hpos, a, ha, flag, hlate⟩ := hstale
    have hne : a.adapter_addr ≠ adapter := fun he => hc.1 ⟨a, ha, he⟩
    refine ⟨hpos, a, mem_igbProbe.mpr (.inl ha), flag, ?_⟩
    rw [igbProbe, setQueues_igb_of_ne _ hne]
    exact hlate
  | igbOpen adapter testing dma req =>
    cases testing with
    | true => exact Option.some.inj heq ▸ hstale
    | false => exact stale_igbOpen hs hc heq (.inl hstale)
  | igbClose adapter => exact Option.some.inj heq ▸ hstale.setOpen adapter false

/-- **A call that breaks the condition** overruns the table or leaves rings not in use. -/
theorem stale_of_not_firstOpen (hs : h.Sound s) {c : UkmemCall} (hc : h.Admits s c)
    (heq : h.call s c = some h') (hfirst : ¬h.FirstOpen c) :
    maxAdapterNum < h'.ukmmap.adapter.length ∨ h'.Stale s := by
  cases c with
  | igbProbe adapter msix =>
    left
    obtain rfl := Option.some.inj heq
    show maxAdapterNum < (h.ukmmap.adapter ++ [_]).length
    rw [List.length_append]
    exact Nat.lt_succ_of_le (not_lt.mp hfirst)
  | igbOpen adapter testing dma req =>
    cases testing with
    | true => exact absurd (fun h => absurd h (by decide)) hfirst
    | false => exact .inr (stale_igbOpen hs hc heq (.inr hfirst))
  | igbClose adapter => exact absurd trivial hfirst

theorem length_igbRequestIrq (hu : h.ukmmap.Distinct) {req : IrqRequest} {irq : Bool}
    (heq : h.igbRequestIrq adapter req = some (h', irq)) :
    h'.ukmmap.adapter.length = h.ukmmap.adapter.length := by
  rcases igbRequestIrq_cases hu heq with ⟨rfl, -⟩ | ⟨rfl, -, -⟩ |
    ⟨-, -, -, -, l, m, h₁, hset₁, hset₂⟩
  · rfl
  · rfl
  · exact hset₂.changes.length.trans hset₁.changes.length

/-- An opening takes no row. -/
theorem length_igbOpen (hu : h.ukmmap.Distinct) {dma : DescFlag → ℕ → Option ℕ} {req : IrqRequest}
    (heq : h.igbOpen adapter false dma req = some h') :
    h'.ukmmap.adapter.length = h.ukmmap.adapter.length := by
  obtain ⟨-, l, h₁, hset₁, ⟨rfl, -⟩ | ⟨-, m, h₂, hset₂, hcases⟩⟩ := igbOpen_cases hu heq
  · exact hset₁.changes.length
  · have hlen₂ := hset₂.changes.length.trans hset₁.changes.length
    rcases hcases with ⟨rfl, -⟩ | ⟨-, h₃, irq, hirq, rfl⟩
    · exact hlen₂
    · have hu₁ : h₁.ukmmap.Distinct := hset₁.ukmmap ▸ hu.appendAt adapter .tx l
      exact (length_igbRequestIrq (hset₂.ukmmap ▸ hu₁.appendAt adapter .rx m) hirq).trans hlen₂

/-- No row is taken out of the table. -/
theorem length_le_call (hs : h.Sound s) {c : UkmemCall} (heq : h.call s c = some h') :
    h.ukmmap.adapter.length ≤ h'.ukmmap.adapter.length := by
  cases c with
  | igbProbe adapter msix =>
    obtain rfl := Option.some.inj heq
    show _ ≤ (h.ukmmap.adapter ++ [_]).length
    rw [List.length_append]
    exact Nat.le_add_right _ _
  | igbOpen adapter testing dma req =>
    cases testing with
    | true => exact (congrArg (fun h : Host => h.ukmmap.adapter.length) (Option.some.inj heq)).le
    | false => exact (length_igbOpen hs.distinct heq).ge
  | igbClose adapter => exact Option.some.inj heq ▸ le_rfl

end Host

section Runs

variable {s : IgbSetup} {h h' : Host} {calls : List UkmemCall}

theorem ukmemSystem_sound (h' : (ukmemSystem s).Reachable h) : h.Sound s :=
  (ukmemSystem s).invariant (fun _ hinit => hinit ▸ Host.sound_init s)
    (fun _ _ _ hs ⟨hc, he⟩ => hs.call hc he) h'

/-- **A run whose openings find empty rows has the rings of one opening in each row.** -/
theorem ukmemSystem_oneOpening
    (h' : ((ukmemSystem s).restrict Host.FirstOpen).Reachable h) : h.OneOpening s := by
  refine ((ukmemSystem s).restrict Host.FirstOpen).invariant_of_reachable ?_ ?_ h'
  · rintro _ rfl
    exact ⟨Nat.zero_le _, fun _ ha => absurd ha List.not_mem_nil⟩
  · rintro g c g' hreach ho ⟨hfirst, hc, heq⟩
    exact ho.call (ukmemSystem_sound hreach.of_restrict) hc heq hfirst

/-- **Any other run** overruns the table or leaves rings that are not in use. -/
theorem ukmemSystem_firstOpen_or (hrun : (ukmemSystem s).Run Host.init calls h) :
    ((ukmemSystem s).restrict Host.FirstOpen).Run Host.init calls h
      ∨ maxAdapterNum < h.ukmmap.adapter.length ∨ h.Stale s := by
  induction hrun with
  | nil => exact .inl .nil
  | @snoc ls g g' c hprev hstep ih =>
    have hs := ukmemSystem_sound ⟨Host.init, ls, rfl, hprev⟩
    rcases ih with ih | ih | ih
    · by_cases hfirst : g.FirstOpen c
      · exact .inl (ih.snoc ⟨hfirst, hstep⟩)
      · exact .inr (Host.stale_of_not_firstOpen hs hstep.1 hstep.2 hfirst)
    · exact .inr (.inl (ih.trans_le (Host.length_le_call hs hstep.2)))
    · exact .inr (.inr (ih.call hs hstep.1 hstep.2))

end Runs
