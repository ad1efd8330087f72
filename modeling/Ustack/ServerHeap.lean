import Ustack.ListHead
import Ustack.MachineInt
import Ustack.Runs
import Ustack.Vserver

/-!
# Server pools in memory

`src/server_pool.c` on bytes. A `struct server_pool` is the link into the list of
pools, an array of `MAX_SERVER` servers, and right behind the array the three
counters `num`, `next` and `ref`; every server has a link of its own into one
global list of servers.

`server_pool_add_server` means to test `num` against `MAX_SERVER`, but the `if`
ends in a semicolon. The entry of a server too many begins at the counters: its
address goes past the end of the pool, and its link goes over `num`, `next` and
`ref`. So bytes are what the functions have to be read on. They are in the
namespace `InMemory`, since the connection model has the same functions over pools
that are arrays and numbers.
-/

/-! ## The structures -/

/-- `MAX_SERVER`. -/
def maxServer : ℕ := 64

/-- The size of `struct server`. -/
def sizeofServer : ℕ := 80

/-- The offset of `addr` in `struct server`, behind the link. -/
def serverAddrOffset : ℕ := 16

/-- The size of `struct net_address`. -/
def sizeofNetAddress : ℕ := 24

/-- The offset of `mac`. -/
def serverMacOffset : ℕ := 40

/-- The offset of `server_list` in `struct server_pool`, behind the link. -/
def poolServersOffset : ℕ := 16

/-- The offset of `num`, behind the servers. -/
def poolNumOffset : ℕ := poolServersOffset + maxServer * sizeofServer

/-- The offset of `next`. -/
def poolNextOffset : ℕ := poolNumOffset + 4

/-- The offset of `ref`. -/
def poolRefOffset : ℕ := poolNumOffset + 8

/-- The size of `struct server_pool`. -/
def sizeofServerPool : ℕ := poolNumOffset + 16

/-- An `int` in memory. -/
def loadInt (m : Memory) (off : ℕ) : Int32 := (load32 m off).toInt32

/-- Store an `int`. -/
def storeInt (m : Memory) (off : ℕ) (v : Int32) : Memory := store32 m off v.toUInt32

/-- `p->num`. -/
def poolNum (m : Memory) (p : ℕ) : Int32 := loadInt m (p + poolNumOffset)

/-- `p->next`. -/
def poolNext (m : Memory) (p : ℕ) : Int32 := loadInt m (p + poolNextOffset)

/-- The address of `p->server_list[i]`. -/
def serverEntry (p : ℕ) (i : Int32) : ℕ :=
  (UInt64.ofNat p + UInt64.ofNat poolServersOffset
    + UInt64.ofNat sizeofServer * sizeOfInt i).toNat

/-- The two static list heads of `server_pool.c`. -/
structure ServerHeads where
  /-- The list of all servers. -/
  server_list : ℕ
  /-- The list of all pools. -/
  server_pool_list : ℕ
  /-- They do not overlap. -/
  apart : chunksApart nodeSize server_list server_pool_list
  /-- The list of servers is in the address space. -/
  server_list_le : server_list + nodeSize ≤ 2 ^ 64
  /-- And so is that of the pools. -/
  server_pool_list_le : server_pool_list + nodeSize ≤ 2 ^ 64

namespace InMemory

/-! ## The functions -/

/-- `server_pool_create`, given what `MALLOC` returned. -/
def serverPoolCreate (L : ServerHeads) (malloc : Option ℕ) (m : Memory) : ℕ × Memory :=
  match malloc with
  | none => (0, m)
  | some sp =>
    let m := storeInt m (sp + poolNumOffset) 0
    let m := storeInt m (sp + poolNextOffset) 0
    let m := storeInt m (sp + poolRefOffset) 0
    (sp, listAdd m sp L.server_pool_list)

/-- `server_pool_add_server`, of an address of 24 bytes. The test against `MAX_SERVER` has no
effect: what follows it is a block of its own. -/
def serverPoolAddServer (L : ServerHeads) (m : Memory) (p : ℕ) (addr : Memory) : ℕ × Memory :=
  let num := poolNum m p
  let srv := serverEntry p num
  let m := storeInt m (p + poolNumOffset) (num + 1)
  let m := storeBytes m (srv + serverAddrOffset) sizeofNetAddress addr
  (srv, listAdd m srv L.server_list)

/-- `server_pool_get_server`; no server is the null pointer. -/
def serverPoolGetServer (m : Memory) (p : ℕ) : ℕ × Memory :=
  let num := poolNum m p
  if 0 < num then
    let next := poolNext m p
    (serverEntry p next, storeInt m (p + poolNextOffset) ((next + 1) % num))
  else (0, m)

/-- `vserver_get_server`. -/
def vserverGetServer (m : Memory) (vs : Vserver) : ℕ × Memory := serverPoolGetServer m vs.pool

end InMemory

/-- The memory of a process and the pools it created. -/
structure ServerHeap where
  /-- The memory. -/
  mem : Memory
  /-- The pools, the last one first. -/
  pools : List ℕ

/-- A call, with what it returned. -/
inductive ServerCall
  /-- `server_pool_create`. -/
  | create (malloc : Option ℕ)
  /-- `server_pool_add_server`. -/
  | add (p : ℕ) (addr : Memory) (srv : ℕ)
  /-- `vserver_get_server`. -/
  | get (vs : Vserver) (srv : ℕ)

namespace ServerHeap

/-- What `MALLOC` may return: nothing, or memory for a pool that overlaps neither a pool nor a
list head. -/
def MallocOk (L : ServerHeads) (s : ServerHeap) (malloc : Option ℕ) : Prop :=
  ∀ sp, malloc = some sp → 0 < sp ∧ sp + sizeofServerPool ≤ 2 ^ 64
    ∧ (∀ p ∈ s.pools, chunksApart sizeofServerPool sp p)
    ∧ (∀ h, h = L.server_list ∨ h = L.server_pool_list →
      h + nodeSize ≤ sp ∨ sp + sizeofServerPool ≤ h)

end ServerHeap

/-- **Server pools under any calls.** Any number of virtual servers may have one pool. -/
def serverSystem (L : ServerHeads) : System ServerHeap ServerCall where
  init s := s.pools = [] ∧ Circular s.mem L.server_list [] ∧ Circular s.mem L.server_pool_list []
  step s l t :=
    match l with
    | .create malloc => s.MallocOk L malloc
        ∧ t = ⟨(InMemory.serverPoolCreate L malloc s.mem).2, malloc.toList ++ s.pools⟩
    | .add p addr srv => p ∈ s.pools
        ∧ (srv, t.mem) = InMemory.serverPoolAddServer L s.mem p addr ∧ t.pools = s.pools
    | .get vs srv => vs.pool ∈ s.pools
        ∧ (srv, t.mem) = InMemory.vserverGetServer s.mem vs ∧ t.pools = s.pools

/-! ## The layout -/

/-- The address of a server of a pool. -/
def entry (p i : ℕ) : ℕ := p + poolServersOffset + sizeofServer * i

/-- In a pool the address of an entry is what the code computes, also of the one past the
array. -/
theorem entry_of_int {p k : ℕ} {i : Int32} (hi : IntIs i k) (hk : k ≤ maxServer)
    (hp : p + sizeofServerPool ≤ 2 ^ 64) : serverEntry p i = entry p k := by
  unfold maxServer at hk
  have hp' : p + 5152 ≤ 2 ^ 64 := hp
  rw [serverEntry, UInt64.toNat_add, UInt64.toNat_add, UInt64.toNat_mul, hi.toNat_sizeOfInt,
    UInt64.toNat_ofNat', UInt64.toNat_ofNat', UInt64.toNat_ofNat']
  unfold entry poolServersOffset sizeofServer
  omega

namespace ServerHeap

/-- The pools overlap neither each other nor the list heads. -/
structure Layout (L : ServerHeads) (pools : List ℕ) : Prop where
  /-- A pool is in the address space. -/
  bounds : ∀ p ∈ pools, 0 < p ∧ p + sizeofServerPool ≤ 2 ^ 64
  /-- Pools do not overlap. -/
  apart : pools.Pairwise (chunksApart sizeofServerPool)
  /-- List heads are outside. -/
  heads : ∀ p ∈ pools, ∀ h, h = L.server_list ∨ h = L.server_pool_list →
    h + nodeSize ≤ p ∨ p + sizeofServerPool ≤ h

/-- A node of the list of servers. -/
def IsServerNode (L : ServerHeads) (pools : List ℕ) (x : ℕ) : Prop :=
  x = L.server_list ∨ ∃ q ∈ pools, ∃ i < maxServer, x = entry q i

/-- A node of the list of pools. -/
def IsPoolNode (L : ServerHeads) (pools : List ℕ) (x : ℕ) : Prop :=
  x = L.server_pool_list ∨ x ∈ pools

section Layout

variable {L : ServerHeads} {pools : List ℕ} {x y p q i j : ℕ}

theorem Layout.apart_of_ne (h : Layout L pools) (hp : p ∈ pools) (hq : q ∈ pools) (hne : p ≠ q) :
    p + 5152 ≤ q ∨ q + 5152 ≤ p := by
  have _hsymm : Std.Symm (chunksApart sizeofServerPool) := ⟨fun _ _ h' => h'.symm⟩
  exact h.apart.forall hp hq hne

/-- Different entries do not overlap. -/
theorem Layout.entries_apart (h : Layout L pools) (hp : p ∈ pools) (hq : q ∈ pools)
    (hi : i < maxServer) (hj : j < maxServer) (hne : p ≠ q ∨ i ≠ j) :
    chunksApart sizeofServer (entry p i) (entry q j) := by
  unfold maxServer at hi hj
  unfold chunksApart entry sizeofServer poolServersOffset
  by_cases hpq : p = q
  · have hij : i ≠ j := hne.resolve_left (not_not.mpr hpq)
    omega
  · have hapart := h.apart_of_ne hp hq hpq
    omega

/-- An entry is in its pool, before the counters. -/
theorem entry_bounds (p : ℕ) (hi : i < maxServer) :
    p + 16 ≤ entry p i ∧ entry p i + 80 ≤ p + poolNumOffset := by
  unfold maxServer at hi
  unfold entry sizeofServer poolServersOffset poolNumOffset poolServersOffset maxServer sizeofServer
  omega

/-- A node of either list. -/
def IsNode (L : ServerHeads) (pools : List ℕ) (x : ℕ) : Prop :=
  IsServerNode L pools x ∨ IsPoolNode L pools x

/-- **Nodes overlap no counters.** -/
theorem Layout.node_counters (h : Layout L pools) (hx : IsNode L pools x) (hq : q ∈ pools) :
    x + nodeSize ≤ q + poolNumOffset ∨ q + sizeofServerPool ≤ x := by
  have hnum : poolNumOffset = 5136 := rfl
  have hsize : sizeofServerPool = 5152 := rfl
  have hnode : nodeSize = 16 := rfl
  obtain (rfl | ⟨p, hp, i, hi, rfl⟩) | rfl | hp := hx
  · have hhead := h.heads q hq _ (Or.inl rfl)
    omega
  · have hin := entry_bounds p hi
    by_cases hpq : p = q
    · subst hpq
      omega
    · have hapart := h.apart_of_ne hp hq hpq
      omega
  · have hhead := h.heads q hq _ (Or.inr rfl)
    omega
  · by_cases hpq : x = q
    · subst hpq
      omega
    · have hapart := h.apart_of_ne hp hq hpq
      omega

/-- **Nor do they overlap what a server holds beside its link.** -/
theorem Layout.node_data (h : Layout L pools) (hx : IsNode L pools x) (hq : q ∈ pools)
    (hj : j < maxServer) :
    x + nodeSize ≤ entry q j + 16 ∨ entry q j + sizeofServer ≤ x := by
  have hsize : sizeofServerPool = 5152 := rfl
  have hserver : sizeofServer = 80 := rfl
  have hnum : poolNumOffset = 5136 := rfl
  have hnode : nodeSize = 16 := rfl
  have hentry := entry_bounds q hj
  obtain (rfl | ⟨p, hp, i, hi, rfl⟩) | rfl | hp := hx
  · have hhead := h.heads q hq _ (Or.inl rfl)
    omega
  · by_cases hne : p ≠ q ∨ i ≠ j
    · have hapart := h.entries_apart hp hq hi hj hne
      unfold chunksApart at hapart
      omega
    · push Not at hne
      obtain ⟨rfl, rfl⟩ := hne
      omega
  · have hhead := h.heads q hq _ (Or.inr rfl)
    omega
  · by_cases hpq : x = q
    · subst hpq
      omega
    · have hapart := h.apart_of_ne hp hq hpq
      omega

/-- The counters of a pool are not in another one, nor among servers. -/
theorem Layout.counters_apart (h : Layout L pools) (hp : p ∈ pools) (hq : q ∈ pools)
    (hne : p ≠ q) : chunksApart 16 (p + poolNumOffset) (q + poolNumOffset) := by
  have hapart := h.apart_of_ne hp hq hne
  unfold chunksApart
  omega

theorem Layout.counters_data (h : Layout L pools) (hp : p ∈ pools) (hq : q ∈ pools)
    (hj : j < maxServer) :
    p + sizeofServerPool ≤ entry q j ∨ entry q j + sizeofServer ≤ p + poolNumOffset := by
  have hsize : sizeofServerPool = 5152 := rfl
  have hserver : sizeofServer = 80 := rfl
  have hnum : poolNumOffset = 5136 := rfl
  have hentry := entry_bounds q hj
  by_cases hpq : p = q
  · subst hpq
    omega
  · have hapart := h.apart_of_ne hp hq hpq
    omega

/-- The nodes of the two lists do not overlap. -/
theorem Layout.lists_apart (h : Layout L pools) (hx : IsServerNode L pools x)
    (hy : IsPoolNode L pools y) : chunksApart nodeSize x y := by
  have hsize : sizeofServerPool = 5152 := rfl
  have hnum : poolNumOffset = 5136 := rfl
  have hnode : nodeSize = 16 := rfl
  unfold chunksApart
  obtain rfl | ⟨p, hp, i, hi, rfl⟩ := hx
  · obtain rfl | hq := hy
    · exact L.apart
    · have hhead := h.heads y hq _ (Or.inl rfl)
      omega
  · have hentry := entry_bounds p hi
    obtain rfl | hq := hy
    · have hhead := h.heads p hp _ (Or.inr rfl)
      omega
    · by_cases hpq : p = y
      · subst hpq
        omega
      · have hapart := h.apart_of_ne hp hq hpq
        omega

theorem Layout.serverNode_lt (h : Layout L pools) (hx : IsServerNode L pools x) :
    x + nodeSize ≤ 2 ^ 64 := by
  obtain rfl | ⟨p, hp, i, hi, rfl⟩ := hx
  · exact L.server_list_le
  · have hin := entry_bounds p hi
    have hend := (h.bounds p hp).2
    have hsize : sizeofServerPool = 5152 := rfl
    have hnum : poolNumOffset = 5136 := rfl
    unfold nodeSize
    omega

end Layout

end ServerHeap
