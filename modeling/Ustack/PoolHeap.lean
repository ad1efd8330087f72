import Ustack.Bytes
import Ustack.MemPool
import Ustack.Runs

/-!
# The memory pool in memory

`src/mem_pool.c` once more, this time with the link of a free node where the code keeps
it: in the first eight bytes of the node. The pool holds the address of the first free
node, the other free nodes are reached through memory, and `mem_pool_alloc` reads its next
head out of the node it hands out.

The pool of `MemPool.lean`, with a list for the free nodes, is what this one means:
`PoolHeap.Refines` says that the links spell that list, and every call on the one is the
call on the other. What keeps it true between calls is that a client writes the nodes it
was handed out and nothing else of the chunks.
-/

/-- A pointer at an address: eight bytes. -/
def loadPtr (m : Memory) (a : ℕ) : ℕ := loadNat m a 8

/-- Store a pointer at an address. -/
def storePtr (m : Memory) (a v : ℕ) : Memory := storeNat m a 8 v

/-- `struct mem_pool` and the memory its nodes lie in. A null pointer is zero. -/
structure PoolHeap where
  /-- The memory. -/
  mem : Memory
  /-- The address of the first free node. -/
  free_list : ℕ
  /-- The rounded node size. -/
  size : UInt32
  /-- The size of a chunk. -/
  chunksize : UInt32
  /-- The number of free nodes. -/
  num : Int32
  /-- The nodes handed out and not returned. -/
  outstanding : List ℕ
  /-- The chunks obtained. -/
  chunks : List ℕ

namespace PoolHeap

/-- `mem_pool_create`. -/
def memPoolCreate (mem : Memory) (size : UInt32) : PoolHeap where
  mem := mem
  free_list := 0
  size := (size + 8 - 1) &&& -8
  chunksize := UInt32.ofNat chunkSize
  num := 0
  outstanding := []
  chunks := []

/-- `slist_add`. -/
def slistAdd (p : PoolHeap) (node : ℕ) : PoolHeap :=
  { p with
    mem := storePtr p.mem node p.free_list
    free_list := node }

/-- `slist_del_first`. -/
def slistDelFirst (p : PoolHeap) : ℕ × PoolHeap :=
  if p.free_list ≠ 0 then (p.free_list, { p with free_list := loadPtr p.mem p.free_list })
  else (0, p)

/-- The loop of `_mem_pool_alloc_chunk`: the first `num` nodes of the chunk. -/
def addNodes (start size : ℕ) : ℕ → PoolHeap → PoolHeap
  | 0, p => p
  | i + 1, p => (addNodes start size i p).slistAdd (start + i * size)

/-- `_mem_pool_alloc_chunk`, given what `malloc` returned. -/
def memPoolAllocChunk (malloc : Option ℕ) (p : PoolHeap) : ℕ × PoolHeap :=
  match malloc with
  | none => (0, p)
  | some start =>
    let num := (p.chunksize / p.size).toNat
    let p := addNodes start p.size.toNat num p
    (num, { p with
      num := p.num + Int32.ofNat num
      chunks := start :: p.chunks })

/-- `if(node) p->num--`. -/
def countOut (p : PoolHeap) (node : ℕ) : PoolHeap :=
  if node = 0 then p
  else { p with num := p.num - 1, outstanding := node :: p.outstanding }

/-- `mem_pool_alloc`, given what `malloc` would return. -/
def memPoolAlloc (malloc : Option ℕ) (p : PoolHeap) : ℕ × PoolHeap :=
  let (node, p) := p.slistDelFirst
  if node = 0 then
    let (ret, p) := p.memPoolAllocChunk malloc
    if ret = 0 then (0, p)
    else
      let (node, p) := p.slistDelFirst
      (node, p.countOut node)
  else (node, p.countOut node)

/-- `mem_pool_free`. -/
def memPoolFree (p : PoolHeap) (node : ℕ) : PoolHeap :=
  let p := p.slistAdd node
  { p with
    num := p.num + 1
    outstanding := p.outstanding.erase node }

end PoolHeap

/-! ## A list spelled by links -/

/-- The links from `head` on spell a list of nodes. -/
def Links (m : Memory) : ℕ → List ℕ → Prop
  | head, [] => head = 0
  | head, node :: rest => head = node ∧ node ≠ 0 ∧ Links m (loadPtr m node) rest

section Links

variable {m m' : Memory} {head node : ℕ} {l : List ℕ}

/-- The links are in the first bytes of the nodes. -/
theorem Links.congr (hagree : ∀ a ∈ l, Agree m m' a 8) (h : Links m head l) :
    Links m' head l := by
  induction l generalizing head with
  | nil => exact h
  | cons node rest ih =>
    obtain ⟨hhead, hne, hrest⟩ := h
    have hptr : loadPtr m node = loadPtr m' node :=
      loadNat_congr (hagree node List.mem_cons_self)
    refine ⟨hhead, hne, ?_⟩
    rw [← hptr]
    exact ih (fun a ha => hagree a (List.mem_cons_of_mem _ ha)) hrest

/-- The head of the links is null or one of the nodes. -/
theorem Links.head_lt (h : Links m head l) (hl : ∀ a ∈ l, a < 2 ^ 64) : head < 2 ^ 64 := by
  cases l with
  | nil => rw [show head = 0 from h]; decide
  | cons node rest => rw [h.1]; exact hl node List.mem_cons_self

/-- **A node apart from the others is put in front of them.** -/
theorem Links.store (h : Links m head l) (hne : node ≠ 0) (hl : ∀ a ∈ l, a < 2 ^ 64)
    (hapart : ∀ a ∈ l, chunksApart 8 node a) :
    Links (storePtr m node head) node (node :: l) := by
  refine ⟨rfl, hne, ?_⟩
  have hptr : loadPtr (storePtr m node head) node = head :=
    (loadNat_storeNat m node 8 head).trans (Nat.mod_eq_of_lt (h.head_lt hl))
  rw [hptr]
  refine h.congr (fun a ha i hi => ?_)
  exact (agree_storeBytes m _ ((hapart a ha).symm) i hi).symm

end Links

/-! ## The pool refines its list -/

/-- **What a pool in memory means**: the pool with its free nodes as a list. -/
structure PoolHeap.Refines (s : PoolHeap) (p : MemPool) : Prop where
  /-- The links spell the free list. -/
  links : Links s.mem s.free_list p.free_list
  /-- The node sizes are the same. -/
  size_eq : s.size.toNat = p.size
  /-- The chunk sizes are the same. -/
  chunksize_eq : s.chunksize.toNat = p.chunksize
  /-- The counter is the number of free nodes, as an `int`. -/
  num_eq : s.num = Int32.ofNat p.num
  /-- The same nodes are outstanding. -/
  outstanding_eq : s.outstanding = p.outstanding
  /-- The chunks are the same. -/
  chunks_eq : s.chunks = p.chunks
  /-- A node has room for a link. -/
  size_ge : 8 ≤ p.size
  /-- A chunk has room for a node. -/
  size_le : p.size ≤ p.chunksize
  /-- The chunks are in the address space, apart from null. -/
  bounds : ∀ c ∈ p.chunks, 0 < c ∧ c + p.chunksize ≤ 2 ^ 64

/-- What `malloc` may return: nothing, or a chunk in the address space that does not
overlap any the pool has. -/
def PoolHeap.MallocOk (s : PoolHeap) (malloc : Option ℕ) : Prop :=
  ∀ start, malloc = some start → 0 < start ∧ start + s.chunksize.toNat ≤ 2 ^ 64
    ∧ ∀ c ∈ s.chunks, chunksApart s.chunksize.toNat start c

section Refines

variable {s : PoolHeap} {p : MemPool} {malloc : Option ℕ} {node : ℕ}

theorem PoolHeap.Refines.mallocOk (h : s.Refines p) (hm : s.MallocOk malloc) :
    p.MallocOk malloc := by
  intro start hs
  rw [← h.chunks_eq, ← h.chunksize_eq]
  exact (hm start hs).2.2

/-- A node of the pool is in the address space, apart from null. -/
theorem PoolHeap.Refines.node_bounds (h : s.Refines p) (hok : p.Ok)
    (ha : node ∈ p.free_list ++ p.outstanding) : node ≠ 0 ∧ node < 2 ^ 64 := by
  obtain ⟨c, hc, hlo, hhi⟩ := hok.exists_chunk ha
  have hb := h.bounds c hc
  have hs := h.size_ge
  omega

/-- `mem_pool_create` rounds the size up to a multiple of eight. -/
theorem toNat_roundUp {size : UInt32} (hle : size.toNat ≤ chunkSize) :
    ((size + 8 - 1) &&& -8).toNat = (size.toNat + 7) / 8 * 8 := by
  have hsum : (size + 8 - 1).toNat = size.toNat + 7 := by
    have hlt : size.toNat ≤ 1048576 := hle
    have hadd : size + 8 - 1 = size + 7 := by
      rw [UInt32.sub_eq_add_neg, UInt32.add_assoc]
      rfl
    rw [hadd, UInt32.toNat_add]
    exact Nat.mod_eq_of_lt (lt_of_le_of_lt (Nat.add_le_add_right hlt 7) (by decide))
  have hx := (size + 8 - 1).toNat_lt
  rw [UInt32.toNat_and, ← hsum]
  generalize (size + 8 - 1).toNat = x at hx
  show x &&& 4294967288 = x / 8 * 8
  -- the mask is 29 ones above three zeros
  refine Nat.eq_of_testBit_eq (fun i => ?_)
  have hmask : (4294967288 : ℕ) = (2 ^ 29 - 1) <<< 3 := rfl
  have hdiv : x / 8 * 8 = (x >>> 3) <<< 3 := by
    rw [Nat.shiftRight_eq_div_pow, Nat.shiftLeft_eq]
  rw [hmask, hdiv, Nat.testBit_and, Nat.testBit_shiftLeft, Nat.testBit_shiftLeft,
    Nat.testBit_shiftRight, Nat.testBit_two_pow_sub_one]
  by_cases hi : 3 ≤ i
  · rw [Nat.add_sub_cancel' hi]
    by_cases hb : i - 3 < 29
    · simp [hi, hb]
    · have hhigh : x.testBit i = false := Nat.testBit_lt_two_pow
        (lt_of_lt_of_le hx (Nat.pow_le_pow_right (by decide) (by omega)))
      simp [hhigh]
  · simp [hi]

theorem refines_create (mem : Memory) {size : UInt32} (hpos : 1 ≤ size.toNat)
    (hle : size.toNat ≤ chunkSize) :
    (PoolHeap.memPoolCreate mem size).Refines (memPoolCreate size.toNat) where
  links := rfl
  size_eq := toNat_roundUp hle
  chunksize_eq := rfl
  num_eq := rfl
  outstanding_eq := rfl
  chunks_eq := rfl
  size_ge := by show 8 ≤ (size.toNat + 7) / 8 * 8; omega
  size_le := by
    have hle : size.toNat ≤ 1048576 := hle
    show (size.toNat + 7) / 8 * 8 ≤ 1048576
    omega
  bounds := fun c hc => absurd hc List.not_mem_nil

/-- **The loop carves the chunk**: its nodes are linked in front of the free ones, and
nothing but memory and the head changes. -/
theorem addNodes_links {start size : ℕ} (hsize : 8 ≤ size) (hstart : 0 < start)
    {l : List ℕ} (hl : ∀ a ∈ l, a < 2 ^ 64) (hlinks : Links s.mem s.free_list l) {n : ℕ}
    (hend : start + n * size ≤ 2 ^ 64)
    (hapart : ∀ a ∈ l, a + size ≤ start ∨ start + n * size ≤ a) :
    Links (PoolHeap.addNodes start size n s).mem (PoolHeap.addNodes start size n s).free_list
        (carve start size n l)
      ∧ PoolHeap.addNodes start size n s
        = { s with
            mem := (PoolHeap.addNodes start size n s).mem
            free_list := (PoolHeap.addNodes start size n s).free_list } := by
  induction n with
  | zero => exact ⟨hlinks, rfl⟩
  | succ n ih =>
    rw [Nat.add_mul, Nat.one_mul] at hend hapart
    obtain ⟨ihlinks, iheq⟩ := ih (by omega) (fun a ha => (hapart a ha).imp id (by omega))
    have hmem : ∀ a ∈ carve start size n l,
        a < 2 ^ 64 ∧ chunksApart 8 (start + n * size) a := by
      intro a ha
      rw [carve_append, List.mem_append] at ha
      rcases ha with ha | ha
      · obtain ⟨i, hi, rfl⟩ := mem_carve.mp ha
        have hmul : (i + 1) * size ≤ n * size := Nat.mul_le_mul_right _ hi
        rw [Nat.add_mul, Nat.one_mul] at hmul
        exact ⟨by omega, Or.inr (by omega)⟩
      · rcases hapart a ha with hlo | hhi
        · exact ⟨hl a ha, Or.inr (by omega)⟩
        · exact ⟨hl a ha, Or.inl (by omega)⟩
    refine ⟨ihlinks.store (by omega) (fun a ha => (hmem a ha).1)
      (fun a ha => (hmem a ha).2), ?_⟩
    rw [PoolHeap.addNodes, PoolHeap.slistAdd, iheq]

/-- **Taking a chunk in** is the same on both. -/
theorem refines_allocChunk (h : s.Refines p) (hok : p.Ok) (hm : s.MallocOk malloc) :
    (s.memPoolAllocChunk malloc).2.Refines (memPoolAllocChunk malloc p).2
      ∧ (s.memPoolAllocChunk malloc).1 = (memPoolAllocChunk malloc p).1 := by
  cases malloc with
  | none => exact ⟨h, rfl⟩
  | some start =>
    obtain ⟨hstart, hend, hapart⟩ := hm start rfl
    rw [h.chunksize_eq] at hend hapart
    rw [h.chunks_eq] at hapart
    have hnum : (s.chunksize / s.size).toNat = p.chunksize / p.size := by
      rw [UInt32.toNat_div, h.chunksize_eq, h.size_eq]
    have hdiv := Nat.div_mul_le_self p.chunksize p.size
    have hfree : ∀ a ∈ p.free_list, a ∈ p.free_list ++ p.outstanding :=
      fun a ha => List.mem_append_left _ ha
    obtain ⟨hlinks, heq⟩ := addNodes_links (s := s)
      (n := p.chunksize / p.size) h.size_ge hstart
      (fun a ha => (h.node_bounds hok (hfree a ha)).2) h.links (by omega)
      (fun a ha => by
        obtain ⟨c, hc, hlo, hhi⟩ := hok.exists_chunk (hfree a ha)
        rcases hapart c hc with hs | hs
        · exact Or.inr (by omega)
        · exact Or.inl (by omega))
    rw [PoolHeap.memPoolAllocChunk, memPoolAllocChunk]
    simp only [hnum, h.size_eq]
    rw [heq]
    refine ⟨⟨hlinks, h.size_eq, h.chunksize_eq, ?_, h.outstanding_eq, ?_, h.size_ge,
      h.size_le, ?_⟩, trivial⟩
    · show s.num + Int32.ofNat (p.chunksize / p.size)
        = Int32.ofNat (p.num + p.chunksize / p.size)
      rw [h.num_eq, Int32.ofNat_add]
    · show start :: s.chunks = start :: p.chunks
      rw [h.chunks_eq]
    · intro c hc
      rcases List.mem_cons.mp hc with rfl | hc
      · exact ⟨hstart, hend⟩
      · exact h.bounds c hc

/-- The first free node comes off the links. -/
theorem slistDelFirst_cons (h : s.Refines p) {rest : List ℕ}
    (hfree : p.free_list = node :: rest) :
    node ≠ 0 ∧ s.slistDelFirst = (node, { s with free_list := loadPtr s.mem node }) := by
  have hlinks := h.links
  rw [hfree] at hlinks
  obtain ⟨hhead, hne, -⟩ := hlinks
  refine ⟨hne, ?_⟩
  rw [PoolHeap.slistDelFirst, if_pos (hhead.trans_ne hne), hhead]

/-- No node comes off the links of an empty list. -/
theorem slistDelFirst_nil (h : s.Refines p) (hfree : p.free_list = []) :
    s.slistDelFirst = (0, s) := by
  have hlinks := h.links
  rw [hfree] at hlinks
  have hnull : s.free_list = 0 := hlinks
  rw [PoolHeap.slistDelFirst, if_neg (not_not.mpr hnull)]

/-- **Handing out a node** is the same on both. -/
theorem refines_take (h : s.Refines p) (hok : p.Ok) :
    (s.slistDelFirst.2.countOut s.slistDelFirst.1).Refines (memPoolTake p).2
      ∧ s.slistDelFirst.1 = (memPoolTake p).1.getD 0 := by
  cases hfree : p.free_list with
  | nil =>
    rw [slistDelFirst_nil h hfree, memPoolTake, hfree]
    exact ⟨h, rfl⟩
  | cons node rest =>
    obtain ⟨hne, htake⟩ := slistDelFirst_cons h hfree
    have hlinks := h.links
    rw [hfree] at hlinks
    have hnum : p.num = rest.length + 1 := by rw [hok.num_eq, hfree, List.length_cons]
    rw [htake, memPoolTake, hfree]
    rw [PoolHeap.countOut, if_neg hne]
    refine ⟨⟨hlinks.2.2, h.size_eq, h.chunksize_eq, ?_, ?_, h.chunks_eq, h.size_ge,
      h.size_le, h.bounds⟩, rfl⟩
    · show s.num - 1 = Int32.ofNat (p.num - 1)
      rw [h.num_eq, hnum, Nat.add_sub_cancel, Int32.ofNat_add]
      exact Int32.add_sub_cancel _ _
    · show node :: s.outstanding = node :: p.outstanding
      rw [h.outstanding_eq]

/-- **`mem_pool_alloc`** is the same on both. -/
theorem refines_alloc (h : s.Refines p) (hok : p.Ok) (hm : s.MallocOk malloc) :
    (s.memPoolAlloc malloc).2.Refines (memPoolAlloc malloc p).2
      ∧ (s.memPoolAlloc malloc).1 = (memPoolAlloc malloc p).1.getD 0 := by
  cases hfree : p.free_list with
  | nil =>
    obtain ⟨hchunk, hret⟩ := refines_allocChunk h hok hm
    rw [PoolHeap.memPoolAlloc, memPoolAlloc, if_pos hfree, slistDelFirst_nil h hfree]
    simp only [if_true]
    rw [hret]
    by_cases hzero : (memPoolAllocChunk malloc p).1 = 0
    · rw [if_pos hzero, if_pos hzero]
      exact ⟨hchunk, rfl⟩
    · rw [if_neg hzero, if_neg hzero]
      exact refines_take hchunk (hok.allocChunk (h.mallocOk hm))
  | cons node rest =>
    have htake := refines_take h hok
    obtain ⟨hne, hdel⟩ := slistDelFirst_cons h hfree
    have hfirst : s.slistDelFirst.1 ≠ 0 := by rw [hdel]; exact hne
    rw [PoolHeap.memPoolAlloc, memPoolAlloc, if_neg (by rw [hfree]; exact List.cons_ne_nil _ _)]
    simp only [if_neg hfirst]
    exact htake

/-- **`mem_pool_free`** of an outstanding node is the same on both. -/
theorem refines_free (h : s.Refines p) (hok : p.Ok) (hnode : node ∈ p.outstanding) :
    (s.memPoolFree node).Refines (memPoolFree p node) := by
  have hmem : node ∈ p.free_list ++ p.outstanding := List.mem_append_right _ hnode
  have hapart := (List.pairwise_append.mp hok.pairwise_nodes).2.2
  have hlinks : Links (storePtr s.mem node s.free_list) node (node :: p.free_list) := by
    refine h.links.store (h.node_bounds hok hmem).1
      (fun a ha => (h.node_bounds hok (List.mem_append_left _ ha)).2) (fun a ha => ?_)
    exact chunksApart.mono h.size_ge (hapart a ha node hnode).symm
  refine ⟨hlinks, h.size_eq, h.chunksize_eq, ?_, ?_, h.chunks_eq, h.size_ge, h.size_le,
    h.bounds⟩
  · show s.num + 1 = Int32.ofNat (p.num + 1)
    rw [h.num_eq, Int32.ofNat_add]
    rfl
  · show s.outstanding.erase node = p.outstanding.erase node
    rw [h.outstanding_eq]

/-- **A client's writes** to the nodes it was handed out leave the links alone. -/
theorem refines_write (h : s.Refines p) (hok : p.Ok) {m : Memory}
    (hwrite : ∀ c ∈ s.chunks, ∀ i, c ≤ i → i < c + s.chunksize.toNat →
      (∀ a ∈ s.outstanding, ¬ (a ≤ i ∧ i < a + s.size.toNat)) → m i = s.mem i) :
    ({ s with mem := m } : PoolHeap).Refines p := by
  rw [h.chunks_eq, h.chunksize_eq, h.outstanding_eq, h.size_eq] at hwrite
  refine ⟨?_, h.size_eq, h.chunksize_eq, h.num_eq, h.outstanding_eq, h.chunks_eq,
    h.size_ge, h.size_le, h.bounds⟩
  refine h.links.congr (fun a ha i hi => ?_)
  obtain ⟨c, hc, hlo, hhi⟩ := hok.exists_chunk (List.mem_append_left _ ha)
  have hge := h.size_ge
  refine (hwrite c hc (a + i) (by omega) (by omega) (fun b hb hin => ?_)).symm
  rcases (List.pairwise_append.mp hok.pairwise_nodes).2.2 a ha b hb with hab | hab <;> omega

end Refines

/-! ## Every sequence of calls -/

/-- A call on the pool, or what happens to memory between two calls. -/
inductive PoolCall
  /-- `mem_pool_alloc`, with what `malloc` would return. -/
  | alloc (malloc : Option ℕ)
  /-- `mem_pool_free`. -/
  | free (node : ℕ)
  /-- Something else writes to memory. -/
  | write (mem : Memory)

/-- One call: only outstanding nodes are freed, and of the chunks only outstanding nodes
are written. -/
inductive PoolHeap.Step (s : PoolHeap) : PoolCall → PoolHeap → Prop
  | alloc {malloc : Option ℕ} : s.MallocOk malloc →
      PoolHeap.Step s (.alloc malloc) (s.memPoolAlloc malloc).2
  | free {node : ℕ} : node ∈ s.outstanding → PoolHeap.Step s (.free node) (s.memPoolFree node)
  | write {mem : Memory} :
      (∀ c ∈ s.chunks, ∀ i, c ≤ i → i < c + s.chunksize.toNat →
        (∀ a ∈ s.outstanding, ¬ (a ≤ i ∧ i < a + s.size.toNat)) → mem i = s.mem i) →
      PoolHeap.Step s (.write mem) { s with mem := mem }

/-- **The pool of one node size**, from its creation on. -/
def poolSystem (size : UInt32) : System PoolHeap PoolCall where
  init s := ∃ mem, s = PoolHeap.memPoolCreate mem size
  step := PoolHeap.Step

/-- The pool means a pool with its accounts in order, of nodes of `n` bytes. -/
def PoolHeap.Sound (n : ℕ) (s : PoolHeap) : Prop :=
  ∃ p : MemPool, s.Refines p ∧ p.Ok ∧ p.size = n ∧ p.chunksize = chunkSize

section Calls

variable {size : UInt32} {s : PoolHeap}

theorem memPoolTake_sizes (p : MemPool) :
    (memPoolTake p).2.size = p.size ∧ (memPoolTake p).2.chunksize = p.chunksize := by
  rw [memPoolTake]
  cases p.free_list <;> exact ⟨rfl, rfl⟩

theorem memPoolAlloc_sizes (malloc : Option ℕ) (p : MemPool) :
    (memPoolAlloc malloc p).2.size = p.size
      ∧ (memPoolAlloc malloc p).2.chunksize = p.chunksize := by
  have hchunk : (memPoolAllocChunk malloc p).2.size = p.size
      ∧ (memPoolAllocChunk malloc p).2.chunksize = p.chunksize := by
    cases malloc <;> exact ⟨rfl, rfl⟩
  have htake := memPoolTake_sizes (memPoolAllocChunk malloc p).2
  rw [memPoolAlloc]
  split
  · dsimp only
    split
    · exact hchunk
    · exact ⟨htake.1.trans hchunk.1, htake.2.trans hchunk.2⟩
  · exact memPoolTake_sizes p

/-- **Every reachable pool means one with its accounts in order.** -/
theorem poolSystem_sound (hpos : 1 ≤ size.toNat) (hle : size.toNat ≤ chunkSize)
    (h : (poolSystem size).Reachable s) : s.Sound ((size.toNat + 7) / 8 * 8) := by
  refine (poolSystem size).invariant ?_ ?_ h
  · rintro s ⟨mem, rfl⟩
    exact ⟨memPoolCreate size.toNat, refines_create mem hpos hle, MemPool.ok_create hpos,
      rfl, rfl⟩
  · rintro s call t ⟨p, hrefines, hok, hsize, hchunksize⟩ hstep
    cases hstep with
    | @alloc malloc hm =>
      obtain ⟨hs, hc⟩ := memPoolAlloc_sizes malloc p
      exact ⟨_, (refines_alloc hrefines hok hm).1, hok.alloc (hrefines.mallocOk hm),
        hs.trans hsize, hc.trans hchunksize⟩
    | @free node hnode =>
      rw [hrefines.outstanding_eq] at hnode
      exact ⟨_, refines_free hrefines hok hnode, hok.free hnode, hsize, hchunksize⟩
    | write hwrite => exact ⟨p, refines_write hrefines hok hwrite, hok, hsize, hchunksize⟩

/-- `mem_pool_alloc` answers null only with nothing free and nothing from `malloc`, and
then changes nothing. -/
theorem memPoolAlloc_eq_null {p : MemPool} {malloc : Option ℕ} (h : s.Refines p) (hok : p.Ok)
    (hm : s.MallocOk malloc) (hnull : (s.memPoolAlloc malloc).1 = 0) :
    p.free_list = [] ∧ malloc = none ∧ (s.memPoolAlloc malloc).2 = s := by
  obtain ⟨hrefines, heq⟩ := refines_alloc h hok hm
  have hnone : (memPoolAlloc malloc p).1 = none := by
    cases hnode : (memPoolAlloc malloc p).1 with
    | none => rfl
    | some node =>
      have hmem : node ∈ (memPoolAlloc malloc p).2.outstanding := by
        rw [MemPool.outstanding_alloc, hnode]
        exact List.mem_cons_self
      have hne := (hrefines.node_bounds (hok.alloc (h.mallocOk hm))
        (List.mem_append_right _ hmem)).1
      rw [hnode, hnull] at heq
      exact absurd heq.symm hne
  obtain ⟨hfree, rfl⟩ := MemPool.alloc_eq_none hok.size_pos h.size_le hnone
  refine ⟨hfree, rfl, ?_⟩
  rw [PoolHeap.memPoolAlloc, slistDelFirst_nil h hfree]
  rfl

/-- `mem_pool_alloc` answers a node that was not outstanding, and it is from then on. -/
theorem memPoolAlloc_fresh {p : MemPool} {malloc : Option ℕ} (h : s.Refines p) (hok : p.Ok)
    (hm : s.MallocOk malloc) (hnode : (s.memPoolAlloc malloc).1 ≠ 0) :
    (s.memPoolAlloc malloc).1 ∉ s.outstanding
      ∧ (s.memPoolAlloc malloc).2.outstanding
        = (s.memPoolAlloc malloc).1 :: s.outstanding := by
  obtain ⟨hrefines, heq⟩ := refines_alloc h hok hm
  rw [heq] at hnode ⊢
  rw [hrefines.outstanding_eq, h.outstanding_eq, MemPool.outstanding_alloc]
  cases hnode' : (memPoolAlloc malloc p).1 with
  | none => exact absurd (by rw [hnode']; rfl) hnode
  | some node => exact ⟨hok.alloc_notMem (h.mallocOk hm) hnode', rfl⟩

/-- **Nodes are disjoint and accounted for.** Whatever was called, the links spell the free
nodes; these and the outstanding ones are the nodes of the chunks, none missing and none
twice, so a node that is freed is free again; they do not overlap and lie in the chunks, the
counter counts the free ones, a node handed out was not outstanding, and null is answered only
with nothing free and nothing from `malloc`, and then nothing changes. -/
theorem poolSystem_accounted (hpos : 1 ≤ size.toNat) (hle : size.toNat ≤ chunkSize)
    (h : (poolSystem size).Reachable s) :
    s.size.toNat = (size.toNat + 7) / 8 * 8
      ∧ ∃ free : List ℕ, Links s.mem s.free_list free
        ∧ (free ++ s.outstanding).Perm (s.chunks.flatMap (fun c =>
            carve c s.size.toNat (s.chunksize.toNat / s.size.toNat) []))
        ∧ (free ++ s.outstanding).Pairwise (chunksApart s.size.toNat)
        ∧ (∀ a ∈ free ++ s.outstanding, ∃ c ∈ s.chunks,
            c ≤ a ∧ a + s.size.toNat ≤ c + s.chunksize.toNat)
        ∧ s.num = Int32.ofNat free.length
        ∧ ∀ malloc, s.MallocOk malloc →
            ((s.memPoolAlloc malloc).1 ≠ 0 → (s.memPoolAlloc malloc).1 ∉ s.outstanding
              ∧ (s.memPoolAlloc malloc).2.outstanding
                = (s.memPoolAlloc malloc).1 :: s.outstanding)
            ∧ ((s.memPoolAlloc malloc).1 = 0 →
              free = [] ∧ malloc = none ∧ (s.memPoolAlloc malloc).2 = s) := by
  obtain ⟨p, hrefines, hok, hsize, -⟩ := poolSystem_sound hpos hle h
  refine ⟨hrefines.size_eq.trans hsize, p.free_list, hrefines.links, ?_, ?_, ?_, ?_, ?_⟩
  · rw [hrefines.size_eq, hrefines.chunksize_eq, hrefines.outstanding_eq, hrefines.chunks_eq]
    exact hok.nodes
  · rw [hrefines.size_eq, hrefines.outstanding_eq]
    exact hok.pairwise_nodes
  · intro a ha
    rw [hrefines.outstanding_eq] at ha
    rw [hrefines.chunks_eq, hrefines.size_eq, hrefines.chunksize_eq]
    exact hok.exists_chunk ha
  · rw [hrefines.num_eq, hok.num_eq]
  · exact fun malloc hm => ⟨memPoolAlloc_fresh hrefines hok hm,
      memPoolAlloc_eq_null hrefines hok hm⟩

/-- A pool of four nodes a chunk after `mem_pool_alloc` got a chunk. -/
def chunkGot : PoolHeap :=
  ((PoolHeap.memPoolCreate (fun _ => 0) 262144).memPoolAlloc (some 4096)).2

/-- Another node is handed out, and the first one freed. -/
def firstFreed : PoolHeap := (chunkGot.memPoolAlloc none).2.memPoolFree 790528

theorem firstFreed_reachable : (poolSystem 262144).Reachable firstFreed := by
  have hgot : (poolSystem 262144).Reachable chunkGot := by
    refine System.Reachable.step (System.Reachable.of_init ⟨fun _ => 0, rfl⟩) (.alloc ?_)
    rintro start ⟨rfl⟩
    exact ⟨by decide, by decide, fun c hc => absurd hc List.not_mem_nil⟩
  have hout : (poolSystem 262144).Reachable (chunkGot.memPoolAlloc none).2 :=
    hgot.step (.alloc fun start hs => absurd hs (Option.some_ne_none start).symm)
  exact hout.step (.free (by decide +kernel))

/-- Three nodes are free again, and one is out. -/
theorem poolSystem_accounted_firstFreed :
    ∃ free : List ℕ, Links firstFreed.mem firstFreed.free_list free
      ∧ (free ++ [528384]).Perm [790528, 528384, 266240, 4096]
      ∧ firstFreed.num = Int32.ofNat free.length := by
  obtain ⟨-, free, hlinks, hnodes, -, -, hnum, -⟩ :=
    poolSystem_accounted (by decide) (by decide) firstFreed_reachable
  have hout : firstFreed.outstanding = [528384] := by decide +kernel
  have hcarved : firstFreed.chunks.flatMap (fun c =>
      carve c firstFreed.size.toNat (firstFreed.chunksize.toNat / firstFreed.size.toNat) [])
      = [790528, 528384, 266240, 4096] := by decide +kernel
  rw [hout, hcarved] at hnodes
  exact ⟨free, hlinks, hnodes, hnum⟩

end Calls
