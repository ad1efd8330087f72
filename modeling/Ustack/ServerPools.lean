import Ustack.ServerHeap

/-!
# Adding servers to pools

The functions of `src/server_pool.c` on bytes against those of the connection
model, which keeps a pool as an array and two numbers. `Models` relates a memory
to such pools and to the list of all servers, and each call on a pool with room
keeps the relation: it does to the memory what the model does to the pool.

A call on a full pool is not stopped, and returns the address behind the array
(`serverPoolAddServer_full`).
-/

/-! ## A pool in memory -/

/-- A `struct net_address` in memory. -/
def loadNetAddress (m : Memory) (off : ℕ) : NetAddress where
  ip := ⟨(load32 m off).toNat, load32 m (off + 4), load32 m (off + 8), load32 m (off + 12),
    load32 m (off + 16)⟩
  port := load16 m (off + 20)

/-- A `struct server` in memory. -/
def loadServer (m : Memory) (off : ℕ) : Server where
  addr := loadNetAddress m (off + serverAddrOffset)
  mac := loadMac m (off + serverMacOffset)

theorem loadNetAddress_congr {m m' : Memory} {off off' : ℕ}
    (h : ∀ i < sizeofNetAddress, m' (off' + i) = m (off + i)) :
    loadNetAddress m' off' = loadNetAddress m off := by
  have h32 : ∀ k ≤ 16, load32 m' (off' + k) = load32 m (off + k) := by
    intro k hk
    have hk' : ∀ i < 4, m' (off' + k + i) = m (off + k + i) := fun i hi => by
      rw [Nat.add_assoc, Nat.add_assoc]
      exact h (k + i) (by unfold sizeofNetAddress; omega)
    have h0 := hk' 0 (by omega)
    rw [Nat.add_zero, Nat.add_zero] at h0
    rw [load32, load32, h0, hk' 1 (by omega), hk' 2 (by omega), hk' 3 (by omega)]
  have h16 : load16 m' (off' + 20) = load16 m (off + 20) := by
    rw [load16, load16, h 20 (by decide), Nat.add_assoc, Nat.add_assoc, h 21 (by decide)]
  have h0 := h32 0 (by omega)
  rw [Nat.add_zero, Nat.add_zero] at h0
  rw [loadNetAddress, loadNetAddress, h0, h32 4 (by omega), h32 8 (by omega), h32 12 (by omega),
    h32 16 (by omega), h16]

theorem loadServer_congr {m m' : Memory} {off : ℕ} (h : Agree m' m (off + 16) 64) :
    loadServer m' off = loadServer m off := by
  have haddr : loadNetAddress m' (off + 16) = loadNetAddress m (off + 16) :=
    loadNetAddress_congr (fun i hi => h i (by unfold sizeofNetAddress at hi; omega))
  have hmac : loadMac m' (off + 40) = loadMac m (off + 40) := by
    funext i
    have hi := h (24 + i) (by omega)
    rwa [show off + 16 + (24 + (i : ℕ)) = off + 40 + i from by omega] at hi
  rw [loadServer, loadServer, serverAddrOffset, serverMacOffset, haddr, hmac]

@[simp] theorem loadInt_storeInt (m : Memory) (off : ℕ) (v : Int32) :
    loadInt (storeInt m off v) off = v := by
  rw [loadInt, storeInt, load32_store32]
  rfl

theorem loadInt_congr {m m' : Memory} {off : ℕ} (h : Agree m' m off 4) :
    loadInt m' off = loadInt m off := by
  rw [loadInt, loadInt, h.load32]

theorem agree_storeInt (m : Memory) (v : Int32) {off p k : ℕ} (h : p + k ≤ off ∨ off + 4 ≤ p) :
    Agree (storeInt m off v) m p k := agree_storeBytes m _ h

/-- **A pool in memory** is a pool of the connection model. -/
structure Holds (m : Memory) (p : ℕ) (sp : ServerPool) : Prop where
  /-- The number of servers. -/
  num : IntIs (poolNum m p) sp.num
  /-- The server to deal out next. -/
  next : IntIs (poolNext m p) sp.next
  /-- The servers. -/
  server : ∀ i < maxServer, loadServer m (entry p i) = sp.server_list i

/-- A pool whose counters and servers are unchanged. -/
theorem Holds.congr {m m' : Memory} {p : ℕ} {sp : ServerPool} (h : Holds m p sp)
    (hcounters : Agree m' m (p + poolNumOffset) 8)
    (hdata : ∀ i < maxServer, Agree m' m (entry p i + 16) 64) : Holds m' p sp where
  num := by
    rw [poolNum, loadInt_congr (hcounters.sub le_rfl (by omega))]
    exact h.num
  next := by
    rw [poolNext, loadInt_congr (hcounters.sub (by unfold poolNextOffset; omega)
      (by unfold poolNextOffset; omega))]
    exact h.next
  server i hi := (loadServer_congr (hdata i hi)).trans (h.server i hi)

/-! ## All pools -/

namespace ServerHeap

/-- **A memory holds pools of the connection model**, and the list of their servers. -/
structure Models (L : ServerHeads) (s : ServerHeap) (pool : ℕ → ServerPool)
    (servers : List ServerPtr) : Prop where
  /-- Nothing overlaps. -/
  layout : Layout L s.pools
  /-- The pools are in memory. -/
  holds : ∀ p ∈ s.pools, Holds s.mem p (pool p)
  /-- No pool is past its array. -/
  num_le : ∀ p ∈ s.pools, (pool p).num ≤ maxServer
  /-- The server to deal out next is one of the pool, if it has any. -/
  next_ok : ∀ p ∈ s.pools, (pool p).next < (pool p).num
    ∨ (pool p).num = 0 ∧ (pool p).next = 0
  /-- The list of all servers. -/
  list : Circular s.mem L.server_list (servers.map (fun srv => entry srv.1 srv.2))
  /-- It has the servers of the pools. -/
  mem_list : ∀ srv, srv ∈ servers ↔ srv.1 ∈ s.pools ∧ srv.2 < (pool srv.1).num
  /-- It has each once. -/
  nodup : servers.Nodup
  /-- The list of all pools. -/
  pool_list : Circular s.mem L.server_pool_list s.pools

section Models

variable {L : ServerHeads} {s : ServerHeap} {pool : ℕ → ServerPool} {servers : List ServerPtr}
  {p : ℕ}

/-- The nodes of the list of servers. -/
theorem Models.isServerNode (h : Models L s pool servers) {x : ℕ}
    (hx : x ∈ L.server_list :: servers.map (fun srv => entry srv.1 srv.2)) :
    IsServerNode L s.pools x := by
  rcases List.mem_cons.mp hx with rfl | hx
  · exact Or.inl rfl
  · obtain ⟨srv, hsrv, rfl⟩ := List.mem_map.mp hx
    obtain ⟨hp, hlt⟩ := (h.mem_list srv).mp hsrv
    exact Or.inr ⟨srv.1, hp, srv.2, lt_of_lt_of_le hlt (h.num_le _ hp), rfl⟩

/-- Two nodes of the list of servers are not one. -/
theorem entry_inj (hl : Layout L s.pools) {q i j : ℕ} (hp : p ∈ s.pools) (hq : q ∈ s.pools)
    (hi : i < maxServer) (hj : j < maxServer) (he : entry p i = entry q j) : p = q ∧ i = j := by
  by_contra hne
  have hne' : p ≠ q ∨ i ≠ j := by
    by_contra hboth
    push Not at hboth
    exact hne hboth
  have hapart := hl.entries_apart hp hq hi hj hne'
  unfold chunksApart sizeofServer at hapart
  omega

/-- An entry and the head of the list. -/
theorem head_entry_apart (hl : Layout L s.pools) {i : ℕ} (hp : p ∈ s.pools) (hi : i < maxServer) :
    chunksApart nodeSize L.server_list (entry p i) := by
  have hin := entry_bounds p hi
  have hhead := hl.heads p hp _ (Or.inl rfl)
  have hsize : sizeofServerPool = 5152 := rfl
  have hnum : poolNumOffset = 5136 := rfl
  have hnode : nodeSize = 16 := rfl
  unfold chunksApart
  omega

/-- The nodes of the list of servers do not overlap. -/
theorem Models.pairwise_nodes (h : Models L s pool servers) :
    (L.server_list :: servers.map (fun srv => entry srv.1 srv.2)).Pairwise
      (chunksApart nodeSize) := by
  have hmem : ∀ srv ∈ servers, srv.1 ∈ s.pools ∧ srv.2 < maxServer := fun srv hsrv => by
    obtain ⟨hp, hlt⟩ := (h.mem_list srv).mp hsrv
    exact ⟨hp, lt_of_lt_of_le hlt (h.num_le _ hp)⟩
  refine List.pairwise_cons.mpr ⟨fun x hx => ?_, ?_⟩
  · obtain ⟨srv, hsrv, rfl⟩ := List.mem_map.mp hx
    exact head_entry_apart h.layout (hmem srv hsrv).1 (hmem srv hsrv).2
  · refine List.pairwise_map.mpr (List.Pairwise.imp_of_mem ?_ h.nodup)
    intro a b ha hb hne
    have hne' : a.1 ≠ b.1 ∨ a.2 ≠ b.2 := by
      by_contra hboth
      push Not at hboth
      exact hne (Prod.ext hboth.1 hboth.2)
    exact (h.layout.entries_apart (hmem a ha).1 (hmem b hb).1 (hmem a ha).2 (hmem b hb).2
      hne').mono (by decide)

/-- **What holds of all pools when one is changed**: of that one, and of the others as before. -/
theorem forall_update {pools : List ℕ} {P : ℕ → ServerPool → Prop} {sp : ServerPool}
    (hself : P p sp) (hother : ∀ q ∈ pools, q ≠ p → P q (pool q)) :
    ∀ q ∈ pools, P q (Function.update pool p sp q) := by
  intro q hq
  by_cases hqp : q = p
  · rw [hqp, Function.update_self]
    exact hself
  · rw [Function.update_of_ne hqp]
    exact hother q hq hqp

/-! ### Adding a server -/

/-- The memory before the server is put on the list. -/
def entryWritten (m : Memory) (p e : ℕ) (addr : Memory) : Memory :=
  storeBytes (storeInt m (p + poolNumOffset) (poolNum m p + 1)) (e + serverAddrOffset)
    sizeofNetAddress addr

/-- What is neither the number of servers nor the address is unchanged. -/
theorem agree_entryWritten (m addr : Memory) {e off n : ℕ}
    (hnum : off + n ≤ p + poolNumOffset ∨ p + poolNumOffset + 4 ≤ off)
    (haddr : off + n ≤ e + 16 ∨ e + 40 ≤ off) : Agree (entryWritten m p e addr) m off n :=
  (agree_storeBytes _ _ haddr).trans (agree_storeInt _ _ hnum)

/-- No link is changed. -/
theorem agree_entryWritten_node (hl : Layout L s.pools) (hp : p ∈ s.pools) {k : ℕ}
    (hk : k < maxServer) (addr : Memory) {x : ℕ} (hx : IsNode L s.pools x) :
    Agree (entryWritten s.mem p (entry p k) addr) s.mem x nodeSize := by
  have hcounters := hl.node_counters hx hp
  have hdata := hl.node_data hx hp hk
  have hsize : sizeofServerPool = poolNumOffset + 16 := rfl
  have hserver : sizeofServer = 80 := rfl
  exact agree_entryWritten _ _ (by omega) (by omega)

/-- Neither is a counter of another pool. -/
theorem agree_entryWritten_counters (hl : Layout L s.pools) (hp : p ∈ s.pools) {k q : ℕ}
    (hk : k < maxServer) (addr : Memory) (hq : q ∈ s.pools) (hne : p ≠ q) :
    Agree (entryWritten s.mem p (entry p k) addr) s.mem (q + poolNumOffset) 8 := by
  have hcounters := hl.counters_apart hp hq hne
  have hdata := hl.counters_data hq hp hk
  have hsize : sizeofServerPool = poolNumOffset + 16 := rfl
  have hserver : sizeofServer = 80 := rfl
  unfold chunksApart at hcounters
  exact agree_entryWritten _ _ (by omega) (by omega)

/-- Neither is another server. -/
theorem agree_entryWritten_data (hl : Layout L s.pools) (hp : p ∈ s.pools) {k q i : ℕ}
    (hk : k < maxServer) (addr : Memory) (hq : q ∈ s.pools) (hi : i < maxServer)
    (hne : p ≠ q ∨ k ≠ i) :
    Agree (entryWritten s.mem p (entry p k) addr) s.mem (entry q i + 16) 64 := by
  have hcounters := hl.counters_data hp hq hi
  have hdata := hl.entries_apart hp hq hk hi hne
  have hsize : sizeofServerPool = poolNumOffset + 16 := rfl
  have hserver : sizeofServer = 80 := rfl
  unfold chunksApart at hdata
  exact agree_entryWritten _ _ (by omega) (by omega)

/-- **Putting a server on the list** changes no counter, no server and no link of the other
list. -/
theorem Models.agree_add (h : Models L s pool servers) {m : Memory} {e off n : ℕ}
    (hm : Circular m L.server_list (servers.map (fun srv => entry srv.1 srv.2)))
    (he : IsServerNode L s.pools e)
    (hoff : ∀ x, IsServerNode L s.pools x → off + n ≤ x ∨ x + nodeSize ≤ off) :
    Agree (listAdd m e L.server_list) m off n :=
  agree_listAdd m (hoff e he) (hoff _ (Or.inl rfl))
    (hoff _ (h.isServerNode hm.nodeNext_mem))

/-- The new entry of a pool with room. -/
theorem Models.serverEntry_eq (h : Models L s pool servers) (hp : p ∈ s.pools) :
    serverEntry p (poolNum s.mem p) = entry p (pool p).num :=
  entry_of_int (h.holds p hp).num (h.num_le p hp) (h.layout.bounds p hp).2

/-- The list of servers before the new one is put on it. -/
theorem Models.list_entryWritten (h : Models L s pool servers) (hp : p ∈ s.pools)
    (hroom : (pool p).num < maxServer) (addr : Memory) :
    Circular (entryWritten s.mem p (entry p (pool p).num) addr) L.server_list
      (servers.map (fun srv => entry srv.1 srv.2)) :=
  h.list.congr (fun _ hx => agree_entryWritten_node h.layout hp hroom addr
    (Or.inl (h.isServerNode hx)))

/-- The pool the server is added to, before the server is put on the list. -/
theorem Models.holds_entryWritten_self (h : Models L s pool servers) (hp : p ∈ s.pools)
    (hroom : (pool p).num < maxServer) (addr : Memory) :
    Holds (entryWritten s.mem p (entry p (pool p).num) addr) p
      (serverPoolAddServer (pool p) (loadNetAddress addr 0)).2 := by
  have hold := h.holds p hp
  have hin := entry_bounds p hroom
  have hmax : maxServer ≤ intMax := by decide
  have hone : IntIs 1 1 := rfl
  refine ⟨?_, ?_, fun i hi => ?_⟩
  · -- the address is stored below the counters
    have hkeep : Agree (entryWritten s.mem p (entry p (pool p).num) addr)
        (storeInt s.mem (p + poolNumOffset) (poolNum s.mem p + 1)) (p + poolNumOffset) 4 :=
      agree_storeBytes _ _ (Or.inr (by unfold serverAddrOffset sizeofNetAddress; omega))
    rw [poolNum, loadInt_congr hkeep, loadInt_storeInt]
    exact hold.num.add hone (by omega)
  · have hkeep : Agree (entryWritten s.mem p (entry p (pool p).num) addr) s.mem
        (p + poolNextOffset) 4 :=
      agree_entryWritten _ _ (by unfold poolNextOffset; omega) (by unfold poolNextOffset; omega)
    rw [poolNext, loadInt_congr hkeep]
    exact hold.next
  · show loadServer _ (entry p i) = Function.update (pool p).server_list (pool p).num
      { (pool p).server_list (pool p).num with addr := loadNetAddress addr 0 } i
    by_cases hik : i = (pool p).num
    · subst hik
      have haddr : loadNetAddress (entryWritten s.mem p (entry p (pool p).num) addr)
          (entry p (pool p).num + serverAddrOffset) = loadNetAddress addr 0 :=
        loadNetAddress_congr (fun j hj => (storeBytes_add hj).trans (by rw [Nat.zero_add]))
      have hmac : loadMac (entryWritten s.mem p (entry p (pool p).num) addr)
          (entry p (pool p).num + serverMacOffset)
          = loadMac s.mem (entry p (pool p).num + serverMacOffset) := by
        funext j
        have hkeep : Agree (entryWritten s.mem p (entry p (pool p).num) addr) s.mem
            (entry p (pool p).num + serverMacOffset) 6 :=
          agree_entryWritten _ _ (by unfold serverMacOffset; omega)
            (by unfold serverMacOffset; omega)
        exact hkeep j j.isLt
      rw [Function.update_self, ← hold.server _ hroom, loadServer, haddr, hmac]
      rfl
    · rw [Function.update_of_ne hik, ← hold.server i hi]
      exact loadServer_congr
        (agree_entryWritten_data h.layout hp hroom addr hp hi (Or.inr (Ne.symm hik)))

/-- All pools, before the server is put on the list. -/
theorem Models.holds_entryWritten (h : Models L s pool servers) (hp : p ∈ s.pools)
    (hroom : (pool p).num < maxServer) (addr : Memory) :
    ∀ q ∈ s.pools, Holds (entryWritten s.mem p (entry p (pool p).num) addr) q
      (Function.update pool p (serverPoolAddServer (pool p) (loadNetAddress addr 0)).2 q) := by
  refine forall_update (h.holds_entryWritten_self hp hroom addr) (fun q hq hqp => ?_)
  exact (h.holds q hq).congr
    (agree_entryWritten_counters h.layout hp hroom addr hq (Ne.symm hqp))
    (fun i hi => agree_entryWritten_data h.layout hp hroom addr hq hi (Or.inl (Ne.symm hqp)))

/-- **Putting a server on the list** leaves all pools as they are. -/
theorem Models.holds_listAdd (h : Models L s pool servers) {m : Memory} {e q : ℕ}
    {sp : ServerPool} (hm : Circular m L.server_list (servers.map (fun srv => entry srv.1 srv.2)))
    (he : IsServerNode L s.pools e) (hq : q ∈ s.pools) (hold : Holds m q sp) :
    Holds (listAdd m e L.server_list) q sp := by
  refine hold.congr (h.agree_add hm he (fun x hx => ?_))
    (fun i hi => h.agree_add hm he (fun x hx => ?_))
  · have hx' := h.layout.node_counters (Or.inl hx) hq
    have hsize : sizeofServerPool = poolNumOffset + 16 := rfl
    omega
  · have hx' := h.layout.node_data (Or.inl hx) hq hi
    have hserver : sizeofServer = 80 := rfl
    omega

/-- The new entry is not on the list, nor does it overlap what is. -/
theorem Models.entry_fresh (h : Models L s pool servers) (hp : p ∈ s.pools)
    (hroom : (pool p).num < maxServer) :
    ∀ x ∈ L.server_list :: servers.map (fun srv => entry srv.1 srv.2),
      chunksApart nodeSize (entry p (pool p).num) x := by
  intro x hx
  rcases List.mem_cons.mp hx with rfl | hx
  · exact (head_entry_apart h.layout hp hroom).symm
  · obtain ⟨srv, hsrv, rfl⟩ := List.mem_map.mp hx
    obtain ⟨hq, hlt⟩ := (h.mem_list srv).mp hsrv
    refine (h.layout.entries_apart hp hq hroom (lt_of_lt_of_le hlt (h.num_le _ hq)) ?_).mono
      (by decide)
    by_contra hsame
    push Not at hsame
    rw [← hsame.1, ← hsame.2] at hlt
    exact lt_irrefl _ hlt

/-- The list with the new entry in front. -/
theorem Models.list_add (h : Models L s pool servers) (hp : p ∈ s.pools)
    (hroom : (pool p).num < maxServer) (addr : Memory) :
    Circular (listAdd (entryWritten s.mem p (entry p (pool p).num) addr)
        (entry p (pool p).num) L.server_list) L.server_list
      (((p, (pool p).num) :: servers).map (fun srv => entry srv.1 srv.2)) := by
  refine (h.list_entryWritten hp hroom addr).add (h.entry_fresh hp hroom) h.pairwise_nodes
    (fun x hx => ?_)
  have hnode : IsServerNode L s.pools x := by
    rcases List.mem_cons.mp hx with rfl | hx
    · exact Or.inr ⟨p, hp, _, hroom, rfl⟩
    · exact h.isServerNode hx
  have hle := h.layout.serverNode_lt hnode
  unfold nodeSize at hle
  omega

/-- The servers on the list are those of the pools, when one more is. -/
theorem Models.mem_list_add (h : Models L s pool servers) (hp : p ∈ s.pools) (addr : NetAddress)
    (srv : ServerPtr) :
    srv ∈ (p, (pool p).num) :: servers ↔ srv.1 ∈ s.pools
      ∧ srv.2 < (Function.update pool p (serverPoolAddServer (pool p) addr).2 srv.1).num := by
  rw [List.mem_cons, h.mem_list]
  by_cases hsrv : srv.1 = p
  · rw [hsrv, Function.update_self]
    show srv = (p, (pool p).num) ∨ p ∈ s.pools ∧ srv.2 < (pool p).num
      ↔ p ∈ s.pools ∧ srv.2 < (pool p).num + 1
    constructor
    · rintro (rfl | ⟨-, hlt⟩)
      · exact ⟨hp, Nat.lt_succ_self _⟩
      · exact ⟨hp, Nat.lt_succ_of_lt hlt⟩
    · rintro ⟨-, hlt⟩
      rcases Nat.lt_succ_iff_lt_or_eq.mp hlt with hlt | heq
      · exact Or.inr ⟨hp, hlt⟩
      · exact Or.inl (Prod.ext hsrv heq)
  · rw [Function.update_of_ne hsrv]
    constructor
    · rintro (rfl | hmem)
      · exact absurd rfl hsrv
      · exact hmem
    · exact Or.inr

/-- What `server_pool_add_server` returns and leaves in memory, in a pool with room. -/
theorem Models.serverPoolAddServer_eq (h : Models L s pool servers) (hp : p ∈ s.pools)
    (addr : Memory) :
    InMemory.serverPoolAddServer L s.mem p addr
      = (entry p (pool p).num, listAdd (entryWritten s.mem p (entry p (pool p).num) addr)
        (entry p (pool p).num) L.server_list) := by
  rw [InMemory.serverPoolAddServer, h.serverEntry_eq hp]
  rfl

/-- **Adding a server to a pool with room**: the memory then holds the pool with the server
added, and the server is on the list. -/
theorem Models.add (h : Models L s pool servers) (hp : p ∈ s.pools)
    (hroom : (pool p).num < maxServer) (addr : Memory) :
    Models L ⟨(InMemory.serverPoolAddServer L s.mem p addr).2, s.pools⟩
      (Function.update pool p (serverPoolAddServer (pool p) (loadNetAddress addr 0)).2)
      ((p, (pool p).num) :: servers) := by
  have hnew : IsServerNode L s.pools (entry p (pool p).num) := Or.inr ⟨p, hp, _, hroom, rfl⟩
  have hlist := h.list_entryWritten hp hroom addr
  rw [h.serverPoolAddServer_eq hp]
  refine ⟨h.layout, fun q hq => ?_, ?_, ?_, h.list_add hp hroom addr, h.mem_list_add hp _, ?_, ?_⟩
  · exact h.holds_listAdd hlist hnew hq (h.holds_entryWritten hp hroom addr q hq)
  · exact forall_update (P := fun _ sp => sp.num ≤ maxServer) hroom
      (fun q hq _ => h.num_le q hq)
  · refine forall_update (P := fun _ sp => sp.next < sp.num ∨ sp.num = 0 ∧ sp.next = 0)
      (Or.inl ?_) (fun q hq _ => h.next_ok q hq)
    show (pool p).next < (pool p).num + 1
    rcases h.next_ok p hp with hlt | ⟨h0, h0'⟩
    · omega
    · omega
  · refine List.nodup_cons.mpr ⟨fun hmem => ?_, h.nodup⟩
    exact lt_irrefl _ ((h.mem_list _).mp hmem).2
  · refine h.pool_list.congr (fun x hx => ?_)
    have hx' : IsPoolNode L s.pools x := List.mem_cons.mp hx
    refine (h.agree_add hlist hnew (fun y hy => ?_)).trans
      (agree_entryWritten_node h.layout hp hroom addr (Or.inr hx'))
    have hxy := h.layout.lists_apart hy hx'
    unfold chunksApart at hxy
    omega

/-! ### Dealing out a server -/

/-- A pointer to a server, as an address; no server is the null pointer. -/
def serverPtr : Option ServerPtr → ℕ
  | none => 0
  | some srv => entry srv.1 srv.2

/-- The memory when the cursor of a pool has moved on. -/
def cursorMoved (m : Memory) (p : ℕ) : Memory :=
  storeInt m (p + poolNextOffset) ((poolNext m p + 1) % poolNum m p)

/-- A pool whose cursor has moved on. -/
def nextMoved (pool : ServerPool) : ServerPool :=
  { pool with next := (pool.next + 1) % pool.num }

/-- What is not the cursor is unchanged. -/
theorem agree_cursorMoved (m : Memory) {off n : ℕ}
    (h : off + n ≤ p + poolNextOffset ∨ p + poolNextOffset + 4 ≤ off) :
    Agree (cursorMoved m p) m off n := agree_storeInt m _ h

/-- No link is changed. -/
theorem agree_cursorMoved_node (hl : Layout L s.pools) (hp : p ∈ s.pools) {x : ℕ}
    (hx : IsNode L s.pools x) : Agree (cursorMoved s.mem p) s.mem x nodeSize := by
  have hcounters := hl.node_counters hx hp
  have hoff : poolNextOffset = poolNumOffset + 4 := rfl
  have hsize : sizeofServerPool = poolNumOffset + 16 := rfl
  exact agree_cursorMoved _ (by omega)

/-- Nor is a server. -/
theorem agree_cursorMoved_data (hl : Layout L s.pools) (hp : p ∈ s.pools) {q i : ℕ}
    (hq : q ∈ s.pools) (hi : i < maxServer) :
    Agree (cursorMoved s.mem p) s.mem (entry q i + 16) 64 := by
  have hcounters := hl.counters_data hp hq hi
  have hoff : poolNextOffset = poolNumOffset + 4 := rfl
  have hsize : sizeofServerPool = poolNumOffset + 16 := rfl
  have hserver : sizeofServer = 80 := rfl
  exact agree_cursorMoved _ (by omega)

/-- The pool whose cursor moves on. -/
theorem Models.holds_cursorMoved_self (h : Models L s pool servers) (hp : p ∈ s.pools)
    (hnext : (pool p).next < (pool p).num) :
    Holds (cursorMoved s.mem p) p (nextMoved (pool p)) := by
  have hold := h.holds p hp
  have hone : IntIs 1 1 := rfl
  have hle := h.num_le p hp
  have hmax : maxServer ≤ intMax := by decide
  have hoff : poolNextOffset = poolNumOffset + 4 := rfl
  refine ⟨?_, ?_, fun i hi =>
    (loadServer_congr (agree_cursorMoved_data h.layout hp hp hi)).trans (hold.server i hi)⟩
  · rw [poolNum, loadInt_congr (agree_cursorMoved _ (by omega))]
    exact hold.num
  · rw [poolNext, cursorMoved, loadInt_storeInt]
    exact (hold.next.add hone (by omega)).mod hold.num

/-- All pools, when the cursor of one has moved on. -/
theorem Models.holds_cursorMoved (h : Models L s pool servers) (hp : p ∈ s.pools)
    (hnext : (pool p).next < (pool p).num) :
    ∀ q ∈ s.pools,
      Holds (cursorMoved s.mem p) q (Function.update pool p (nextMoved (pool p)) q) := by
  refine forall_update (h.holds_cursorMoved_self hp hnext) (fun q hq hqp => ?_)
  have hoff : poolNextOffset = poolNumOffset + 4 := rfl
  have hapart := h.layout.counters_apart hp hq (Ne.symm hqp)
  unfold chunksApart at hapart
  exact (h.holds q hq).congr (agree_cursorMoved _ (by omega))
    (fun i hi => agree_cursorMoved_data h.layout hp hq hi)

/-- **Moving the cursor of a pool** that has servers. -/
theorem Models.cursor (h : Models L s pool servers) (hp : p ∈ s.pools)
    (hnext : (pool p).next < (pool p).num) :
    Models L ⟨cursorMoved s.mem p, s.pools⟩ (Function.update pool p (nextMoved (pool p)))
      servers := by
  have hnum : ∀ q, (Function.update pool p (nextMoved (pool p)) q).num = (pool q).num := by
    intro q
    by_cases hqp : q = p
    · subst hqp
      rw [Function.update_self]
      rfl
    · rw [Function.update_of_ne hqp]
  refine ⟨h.layout, h.holds_cursorMoved hp hnext, fun q hq => ?_, ?_, ?_, fun srv => ?_,
    h.nodup, ?_⟩
  · rw [hnum]
    exact h.num_le q hq
  · exact forall_update (P := fun _ sp => sp.next < sp.num ∨ sp.num = 0 ∧ sp.next = 0)
      (Or.inl (Nat.mod_lt _ (Nat.zero_lt_of_lt hnext))) (fun q hq _ => h.next_ok q hq)
  · exact h.list.congr (fun x hx =>
      agree_cursorMoved_node h.layout hp (Or.inl (h.isServerNode hx)))
  · rw [h.mem_list, hnum]
  · exact h.pool_list.congr (fun x hx =>
      agree_cursorMoved_node h.layout hp (Or.inr (List.mem_cons.mp hx)))

/-- A pool that has servers has its cursor on one of them. -/
theorem Models.next_lt (h : Models L s pool servers) (hp : p ∈ s.pools)
    (hnum : (pool p).num ≠ 0) : (pool p).next < (pool p).num := by
  rcases h.next_ok p hp with hlt | ⟨h0, -⟩
  · exact hlt
  · exact absurd h0 hnum

/-- What `server_pool_get_server` returns and leaves in memory, in a pool without servers. -/
theorem Models.serverPoolGetServer_empty (h : Models L s pool servers) (hp : p ∈ s.pools)
    (hnum : (pool p).num = 0) : InMemory.serverPoolGetServer s.mem p = (0, s.mem) := by
  have hzero : IntIs 0 0 := rfl
  have hpos := hzero.lt_iff (h.holds p hp).num
  exact if_neg (fun hlt => absurd (hpos.mp hlt) (by omega))

/-- The same in a pool with servers. -/
theorem Models.serverPoolGetServer_eq (h : Models L s pool servers) (hp : p ∈ s.pools)
    (hnum : (pool p).num ≠ 0) :
    InMemory.serverPoolGetServer s.mem p = (entry p (pool p).next, cursorMoved s.mem p) := by
  have hold := h.holds p hp
  have hzero : IntIs 0 0 := rfl
  have hpos : 0 < poolNum s.mem p := (hzero.lt_iff hold.num).mpr (by omega)
  have hle := h.num_le p hp
  have hlt := h.next_lt hp hnum
  rw [← entry_of_int hold.next (by omega) (h.layout.bounds p hp).2]
  exact if_pos hpos

/-- **Dealing out a server**: it is the one the model deals out, and the memory then holds the
model's pools. -/
theorem Models.get (h : Models L s pool servers) (hp : p ∈ s.pools) :
    (InMemory.serverPoolGetServer s.mem p).1 = serverPtr (serverPoolGetServer pool p).1
      ∧ Models L ⟨(InMemory.serverPoolGetServer s.mem p).2, s.pools⟩
        (serverPoolGetServer pool p).2 servers := by
  by_cases hnum : (pool p).num = 0
  · have hpool : serverPoolGetServer pool p = (none, pool) := if_pos hnum
    rw [h.serverPoolGetServer_empty hp hnum, hpool]
    exact ⟨rfl, h⟩
  · have hpool : serverPoolGetServer pool p
        = (some (p, (pool p).next), Function.update pool p (nextMoved (pool p))) := if_neg hnum
    rw [h.serverPoolGetServer_eq hp hnum, hpool]
    exact ⟨rfl, h.cursor hp (h.next_lt hp hnum)⟩

/-! ### Creating a pool -/

/-- Room for one more pool. -/
theorem Layout.cons {sp : ℕ} (hl : Layout L s.pools) (hm : s.MallocOk L (some sp)) :
    Layout L (sp :: s.pools) := by
  obtain ⟨hpos, hle, hapart, hheads⟩ := hm sp rfl
  refine ⟨fun q hq => ?_, List.pairwise_cons.mpr ⟨hapart, hl.apart⟩, fun q hq => ?_⟩
  · rcases List.mem_cons.mp hq with rfl | hq
    · exact ⟨hpos, hle⟩
    · exact hl.bounds q hq
  · rcases List.mem_cons.mp hq with rfl | hq
    · exact hheads
    · exact hl.heads q hq

/-- It is none of the others. -/
theorem Layout.notMem {sp : ℕ} (hl : Layout L (sp :: s.pools)) : sp ∉ s.pools := by
  intro hsp
  have hapart := (List.pairwise_cons.mp hl.apart).1 sp hsp
  have hsize : sizeofServerPool = 5152 := rfl
  unfold chunksApart at hapart
  omega

/-- The nodes of the list of pools do not overlap. -/
theorem Layout.pairwise_poolNodes {pools : List ℕ} (hl : Layout L pools) :
    (L.server_pool_list :: pools).Pairwise (chunksApart nodeSize) := by
  refine List.pairwise_cons.mpr ⟨fun q hq => ?_, hl.apart.imp (fun h => h.mono (by decide))⟩
  have hhead := hl.heads q hq _ (Or.inr rfl)
  have hsize : sizeofServerPool = 5152 := rfl
  have hnode : nodeSize = 16 := rfl
  unfold chunksApart
  omega

theorem Layout.poolNode_lt {pools : List ℕ} (hl : Layout L pools) {x : ℕ}
    (hx : IsPoolNode L pools x) : x < 2 ^ 64 := by
  have hsize : sizeofServerPool = 5152 := rfl
  rcases hx with rfl | hx
  · have hle := L.server_pool_list_le
    unfold nodeSize at hle
    omega
  · have hle := (hl.bounds x hx).2
    omega

/-- The memory before a new pool is put on the list. -/
def poolWritten (m : Memory) (sp : ℕ) : Memory :=
  storeInt (storeInt (storeInt m (sp + poolNumOffset) 0) (sp + poolNextOffset) 0)
    (sp + poolRefOffset) 0

/-- A new pool. Its servers are what the memory held. -/
def newPool (m : Memory) (sp : ℕ) : ServerPool where
  server_list i := loadServer m (entry sp i)
  num := 0
  next := 0

/-- What is not a counter of the new pool is unchanged. -/
theorem agree_poolWritten (m : Memory) {sp off n : ℕ}
    (h : off + n ≤ sp + poolNumOffset ∨ sp + sizeofServerPool ≤ off) :
    Agree (poolWritten m sp) m off n := by
  have hnext : poolNextOffset = poolNumOffset + 4 := rfl
  have href : poolRefOffset = poolNumOffset + 8 := rfl
  have hsize : sizeofServerPool = poolNumOffset + 16 := rfl
  exact (agree_storeInt _ _ (by omega)).trans
    ((agree_storeInt _ _ (by omega)).trans (agree_storeInt _ _ (by omega)))

/-- No link is changed. -/
theorem agree_poolWritten_node {sp : ℕ} (hl : Layout L (sp :: s.pools)) {x : ℕ}
    (hx : IsNode L (sp :: s.pools) x) : Agree (poolWritten s.mem sp) s.mem x nodeSize :=
  agree_poolWritten _ (hl.node_counters hx List.mem_cons_self)

/-- What is behind the link of a server is unchanged. -/
theorem agree_poolWritten_data {sp : ℕ} (hl : Layout L (sp :: s.pools)) {q i : ℕ}
    (hq : q ∈ sp :: s.pools) (hi : i < maxServer) :
    Agree (poolWritten s.mem sp) s.mem (entry q i + 16) 64 := by
  have hcounters := hl.counters_data List.mem_cons_self hq hi
  have hserver : sizeofServer = 80 := rfl
  exact agree_poolWritten _ (by omega)

/-- The new pool, before it is put on the list. -/
theorem holds_poolWritten_self {sp : ℕ} (hl : Layout L (sp :: s.pools)) :
    Holds (poolWritten s.mem sp) sp (newPool s.mem sp) := by
  have hnext : poolNextOffset = poolNumOffset + 4 := rfl
  have href : poolRefOffset = poolNumOffset + 8 := rfl
  refine ⟨?_, ?_, fun i hi =>
    loadServer_congr (agree_poolWritten_data hl List.mem_cons_self hi)⟩
  · -- `num` is stored first
    have hkeep : Agree (poolWritten s.mem sp) (storeInt s.mem (sp + poolNumOffset) 0)
        (sp + poolNumOffset) 4 :=
      (agree_storeInt _ _ (by omega)).trans (agree_storeInt _ _ (by omega))
    rw [poolNum, loadInt_congr hkeep, loadInt_storeInt]
    rfl
  · have hkeep : Agree (poolWritten s.mem sp)
        (storeInt (storeInt s.mem (sp + poolNumOffset) 0) (sp + poolNextOffset) 0)
        (sp + poolNextOffset) 4 := agree_storeInt _ _ (by omega)
    rw [poolNext, loadInt_congr hkeep, loadInt_storeInt]
    rfl

/-- All pools, before the new one is put on the list. -/
theorem Models.holds_poolWritten {sp : ℕ} (h : Models L s pool servers)
    (hl : Layout L (sp :: s.pools)) :
    ∀ q ∈ sp :: s.pools,
      Holds (poolWritten s.mem sp) q (Function.update pool sp (newPool s.mem sp) q) := by
  refine forall_update (holds_poolWritten_self hl) (fun q hq hqs => ?_)
  have hmem : q ∈ s.pools := (List.mem_cons.mp hq).resolve_left hqs
  have hsize : sizeofServerPool = poolNumOffset + 16 := rfl
  have hapart := hl.counters_apart List.mem_cons_self hq (Ne.symm hqs)
  unfold chunksApart at hapart
  exact (h.holds q hmem).congr (agree_poolWritten _ (by omega))
    (fun i hi => agree_poolWritten_data hl hq hi)

/-- **Putting a pool on the list** changes no counter, no server and no link of the other list. -/
theorem agree_poolAdd {m : Memory} {sp off n : ℕ} (hm : Circular m L.server_pool_list s.pools)
    (hoff : ∀ x, IsPoolNode L (sp :: s.pools) x → off + n ≤ x ∨ x + nodeSize ≤ off) :
    Agree (listAdd m sp L.server_pool_list) m off n := by
  refine agree_listAdd m (hoff sp (Or.inr List.mem_cons_self)) (hoff _ (Or.inl rfl))
    (hoff _ ?_)
  rcases List.mem_cons.mp hm.nodeNext_mem with hx | hx
  · exact Or.inl hx
  · exact Or.inr (List.mem_cons_of_mem sp hx)

/-- **Creating a pool**: the memory then holds an empty pool beside the others. -/
theorem Models.create {sp : ℕ} (h : Models L s pool servers) (hm : s.MallocOk L (some sp)) :
    Models L ⟨(InMemory.serverPoolCreate L (some sp) s.mem).2, sp :: s.pools⟩
      (Function.update pool sp (newPool s.mem sp)) servers := by
  have hl := h.layout.cons hm
  have hold : ∀ q ∈ sp :: s.pools, q ≠ sp → q ∈ s.pools := fun q hq hqs =>
    (List.mem_cons.mp hq).resolve_left hqs
  have hnode : ∀ x, IsPoolNode L s.pools x → IsPoolNode L (sp :: s.pools) x := fun x hx =>
    hx.imp id (List.mem_cons_of_mem sp)
  have hlist : Circular (poolWritten s.mem sp) L.server_pool_list s.pools :=
    h.pool_list.congr (fun x hx => agree_poolWritten_node hl
      (Or.inr (hnode x (List.mem_cons.mp hx))))
  show Models L ⟨listAdd (poolWritten s.mem sp) sp L.server_pool_list, sp :: s.pools⟩ _ _
  refine ⟨hl, fun q hq => ?_, ?_, ?_, ?_, fun srv => ?_, h.nodup, ?_⟩
  · refine (h.holds_poolWritten hl q hq).congr (agree_poolAdd hlist (fun x hx => ?_))
      (fun i hi => agree_poolAdd hlist (fun x hx => ?_))
    · have hx' := hl.node_counters (Or.inr hx) hq
      have hsize : sizeofServerPool = poolNumOffset + 16 := rfl
      omega
    · have hx' := hl.node_data (Or.inr hx) hq hi
      have hserver : sizeofServer = 80 := rfl
      omega
  · exact forall_update (P := fun _ pl => pl.num ≤ maxServer) (Nat.zero_le _)
      (fun q hq hqs => h.num_le q (hold q hq hqs))
  · exact forall_update (P := fun _ pl => pl.next < pl.num ∨ pl.num = 0 ∧ pl.next = 0)
      (Or.inr ⟨rfl, rfl⟩) (fun q hq hqs => h.next_ok q (hold q hq hqs))
  · refine h.list.congr (fun x hx => ?_)
    have hx' : IsServerNode L (sp :: s.pools) x :=
      (h.isServerNode hx).imp id (fun ⟨q, hq, hrest⟩ => ⟨q, List.mem_cons_of_mem sp hq, hrest⟩)
    refine (agree_poolAdd hlist (fun y hy => ?_)).trans (agree_poolWritten_node hl (Or.inl hx'))
    have hxy := hl.lists_apart hx' hy
    unfold chunksApart at hxy
    omega
  · rw [h.mem_list]
    by_cases hsrv : srv.1 = sp
    · rw [hsrv, Function.update_self]
      refine ⟨fun hin => absurd hin.1 hl.notMem, fun hin => absurd hin.2 (Nat.not_lt_zero _)⟩
    · rw [Function.update_of_ne hsrv, List.mem_cons, or_iff_right hsrv]
  · refine hlist.add (fun x hx => ?_) h.layout.pairwise_poolNodes (fun x hx => ?_)
    · exact (List.pairwise_cons.mp (hl.pairwise_poolNodes.perm
        (List.Perm.swap sp L.server_pool_list _) chunksApart.symm)).1 x hx
    · refine hl.poolNode_lt ?_
      rcases List.mem_cons.mp hx with rfl | hx
      · exact Or.inr List.mem_cons_self
      · exact hnode x (List.mem_cons.mp hx)

end Models

end ServerHeap
