import Ustack.ServerPools

/-!
# Pools and the ends of their arrays

`server_pool_add_server` returns `NULL` at its end, for a pool that has
`MAX_SERVER` servers already, but never gets there: the `if` before it is empty.
The calls do what they are meant to in exactly the runs in which no server is
added to a full pool (`serverSystem_addsAsMeant_iff`). In such a run the memory
holds pools of the connection model after each call (`Models.step`), which is also
what the order of selections is read off.
-/

/-! ## Runs with room -/

namespace ServerHeap

/-- A server is only added to a pool with fewer than `MAX_SERVER`. -/
def HasRoom (s : ServerHeap) : ServerCall → Prop
  | .add p _ _ => poolNum s.mem p < Int32.ofNat maxServer
  | _ => True

/-- What a call does to the pools of the connection model. -/
def poolsAfter (m : Memory) (pool : ℕ → ServerPool) : ServerCall → ℕ → ServerPool
  | .create none => pool
  | .create (some sp) => Function.update pool sp (newPool m sp)
  | .add p addr _ =>
    Function.update pool p (serverPoolAddServer (pool p) (loadNetAddress addr 0)).2
  | .get vs _ => (serverPoolGetServer pool vs.pool).2

/-- What it does to the list of all servers. -/
def serversAfter (pool : ℕ → ServerPool) (servers : List ServerPtr) :
    ServerCall → List ServerPtr
  | .add p _ _ => (p, (pool p).num) :: servers
  | _ => servers

section Runs

variable {L : ServerHeads} {s t : ServerHeap} {pool : ℕ → ServerPool}
  {servers : List ServerPtr} {p : ℕ} {l : ServerCall}

/-- The test of the code, in the model. -/
theorem Models.num_lt_iff (h : Models L s pool servers) (hp : p ∈ s.pools) :
    poolNum s.mem p < Int32.ofNat maxServer ↔ (pool p).num < maxServer := by
  have hmax : IntIs (Int32.ofNat maxServer) maxServer := rfl
  exact (h.holds p hp).num.lt_iff hmax

/-- At first there are no pools. -/
theorem Models.of_init (h : (serverSystem L).init s) (pool : ℕ → ServerPool) :
    Models L s pool [] := by
  obtain ⟨hpools, hservers, hlist⟩ := h
  have hnone : ∀ q, q ∉ s.pools := fun q hq => by
    rw [hpools] at hq
    exact List.not_mem_nil hq
  refine ⟨⟨fun q hq => absurd hq (hnone q), ?_, fun q hq => absurd hq (hnone q)⟩,
    fun q hq => absurd hq (hnone q), fun q hq => absurd hq (hnone q),
    fun q hq => absurd hq (hnone q), hservers,
    fun srv => ⟨fun hmem => absurd hmem List.not_mem_nil, fun hin => absurd hin.1 (hnone _)⟩,
    List.nodup_nil, ?_⟩
  · rw [hpools]
    exact List.Pairwise.nil
  · rw [hpools]
    exact hlist

/-- **A call on pools with room** does to the memory what it does to the model. -/
theorem Models.step (h : Models L s pool servers) (hroom : HasRoom s l)
    (hstep : (serverSystem L).step s l t) :
    Models L t (poolsAfter s.mem pool l) (serversAfter pool servers l) := by
  cases l with
  | create malloc =>
    obtain ⟨hmalloc, rfl⟩ := hstep
    cases malloc with
    | none => exact h
    | some sp => exact h.create hmalloc
  | add p addr srv =>
    obtain ⟨hp, hcall, hpools⟩ := hstep
    have ht : t = ⟨(InMemory.serverPoolAddServer L s.mem p addr).2, s.pools⟩ := by
      rw [← hcall, ← hpools]
    rw [ht]
    exact h.add hp ((h.num_lt_iff hp).mp hroom) addr
  | get vs srv =>
    obtain ⟨hp, hcall, hpools⟩ := hstep
    have ht : t = ⟨(InMemory.serverPoolGetServer s.mem vs.pool).2, s.pools⟩ := by
      rw [← hpools]
      exact congrArg (ServerHeap.mk · t.pools) (congrArg Prod.snd hcall)
    rw [ht]
    exact (h.get hp).2

/-- **A run on pools with room** keeps them in memory. -/
theorem Models.of_run {ls : List ServerCall} (hinit : (serverSystem L).init s)
    (hrun : ((serverSystem L).restrict HasRoom).Run s ls t) :
    ∃ pool servers, Models L t pool servers := by
  refine hrun.invariant (P := fun u => ∃ pool servers, Models L u pool servers) ?_
    ⟨fun _ => newPool s.mem 0, [], Models.of_init hinit _⟩
  rintro u l v ⟨pool, servers, h⟩ ⟨hroom, hstep⟩
  exact ⟨_, _, h.step hroom hstep⟩

end Runs

/-! ## What adding a server is to do -/

/-- No pool has more servers than its array. -/
def WithinArrays (s : ServerHeap) : Prop :=
  ∀ p ∈ s.pools, poolNum s.mem p ≤ Int32.ofNat maxServer

/-- A server that was added to a pool: an entry below its number of servers. -/
def IsAdded (s : ServerHeap) (x : ℕ) : Prop :=
  ∃ q ∈ s.pools, ∃ i : ℕ, (i : ℤ) < (poolNum s.mem q).toInt ∧ x = entry q i

/-- The list of all servers, each on it once. -/
def OnList (L : ServerHeads) (m : Memory) (xs : List ℕ) : Prop :=
  Circular m L.server_list xs ∧ (L.server_list :: xs).Nodup

/-- **A full pool** is left as it is. -/
structure RefusesServer (L : ServerHeads) (s : ServerHeap) (srv : ℕ) (m : Memory) : Prop where
  /-- No server is returned. -/
  srv_eq : srv = 0
  /-- No pool changes. -/
  pools : ∀ q ∈ s.pools, Agree m s.mem q sizeofServerPool
  /-- Nor does the list of servers. -/
  list : ∃ xs, OnList L s.mem xs ∧ OnList L m xs

/-- **A pool with room** gets a new entry. -/
structure TakesServer (L : ServerHeads) (s : ServerHeap) (p : ℕ) (addr : Memory) (srv : ℕ)
    (m : Memory) : Prop where
  /-- A pointer is returned, -/
  srv_ne : srv ≠ 0
  /-- to an entry of the pool, -/
  entry : ∃ i < maxServer, srv = entry p i
  /-- which is not one of those added before. -/
  new : ¬ IsAdded s srv
  /-- The servers are now those and the new one. -/
  added : ∀ x, IsAdded ⟨m, s.pools⟩ x ↔ x = srv ∨ IsAdded s x
  /-- The address of the new one is the argument. -/
  addr : ∀ i < sizeofNetAddress, m (srv + serverAddrOffset + i) = addr i
  /-- The others keep theirs. -/
  kept : ∀ x, IsAdded s x → Agree m s.mem (x + serverAddrOffset) sizeofNetAddress
  /-- The new one is put on the list. -/
  list : ∃ xs, OnList L s.mem xs ∧ OnList L m (srv :: xs)

/-- **What the calls are meant to do**, in pools within their arrays. -/
def AddsAsMeant (L : ServerHeads) (s : ServerHeap) : ServerCall → Prop
  | .add p addr _ => WithinArrays s
      ∧ (poolNum s.mem p < Int32.ofNat maxServer →
        TakesServer L s p addr (InMemory.serverPoolAddServer L s.mem p addr).1
          (InMemory.serverPoolAddServer L s.mem p addr).2)
      ∧ (¬ poolNum s.mem p < Int32.ofNat maxServer →
        RefusesServer L s (InMemory.serverPoolAddServer L s.mem p addr).1
          (InMemory.serverPoolAddServer L s.mem p addr).2)
  | _ => WithinArrays s

/-! ## What it does -/

section Adds

variable {L : ServerHeads} {s t : ServerHeap} {pool : ℕ → ServerPool}
  {servers : List ServerPtr} {p : ℕ} {l : ServerCall}

theorem Models.withinArrays (h : Models L s pool servers) : WithinArrays s := by
  intro p hp
  have hmax : IntIs (Int32.ofNat maxServer) maxServer := rfl
  exact ((h.holds p hp).num.le_iff hmax).mpr (h.num_le p hp)

/-- The servers that were added, in the model. -/
theorem Models.isAdded_iff (h : Models L s pool servers) {x : ℕ} :
    IsAdded s x ↔ ∃ q ∈ s.pools, ∃ i < (pool q).num, x = entry q i := by
  have hlt : ∀ q ∈ s.pools, ∀ i : ℕ,
      (i : ℤ) < (poolNum s.mem q).toInt ↔ i < (pool q).num := fun q hq i => by
    rw [(h.holds q hq).num, Nat.cast_lt]
  constructor
  · rintro ⟨q, hq, i, hi, hx⟩
    exact ⟨q, hq, i, (hlt q hq i).mp hi, hx⟩
  · rintro ⟨q, hq, i, hi, hx⟩
    exact ⟨q, hq, i, (hlt q hq i).mpr hi, hx⟩

theorem Models.onList (h : Models L s pool servers) :
    OnList L s.mem (servers.map (fun srv => entry srv.1 srv.2)) := by
  refine ⟨h.list, h.pairwise_nodes.imp (fun {a b} hab he => ?_)⟩
  unfold chunksApart nodeSize at hab
  omega

/-- The address of the new server, once it is on the list. -/
theorem Models.addr_add (h : Models L s pool servers) (hp : p ∈ s.pools)
    (hroom : (pool p).num < maxServer) (addr : Memory) {i : ℕ} (hi : i < sizeofNetAddress) :
    (InMemory.serverPoolAddServer L s.mem p addr).2
      (entry p (pool p).num + serverAddrOffset + i) = addr i := by
  have hkeep : Agree (InMemory.serverPoolAddServer L s.mem p addr).2
      (entryWritten s.mem p (entry p (pool p).num) addr)
      (entry p (pool p).num + serverAddrOffset) sizeofNetAddress := by
    rw [h.serverPoolAddServer_eq hp]
    refine h.agree_add (h.list_entryWritten hp hroom addr) (Or.inr ⟨p, hp, _, hroom, rfl⟩)
      (fun x hx => ?_)
    have hx' := h.layout.node_data (Or.inl hx) hp hroom
    unfold sizeofServer at hx'
    unfold serverAddrOffset sizeofNetAddress
    omega
  exact (hkeep i hi).trans (storeBytes_add hi)

/-- The addresses of the others. -/
theorem Models.kept_add (h : Models L s pool servers) (hp : p ∈ s.pools)
    (hroom : (pool p).num < maxServer) (addr : Memory) {x : ℕ} (hx : IsAdded s x) :
    Agree (InMemory.serverPoolAddServer L s.mem p addr).2 s.mem (x + serverAddrOffset)
      sizeofNetAddress := by
  obtain ⟨q, hq, i, hi, rfl⟩ := h.isAdded_iff.mp hx
  have himax : i < maxServer := lt_of_lt_of_le hi (h.num_le q hq)
  have hne : p ≠ q ∨ (pool p).num ≠ i := by
    by_contra hsame
    push Not at hsame
    rw [← hsame.1, ← hsame.2] at hi
    exact lt_irrefl _ hi
  have hdata := agree_entryWritten_data h.layout hp hroom addr hq himax hne
  rw [h.serverPoolAddServer_eq hp]
  refine (h.agree_add (h.list_entryWritten hp hroom addr) (Or.inr ⟨p, hp, _, hroom, rfl⟩)
    (fun y hy => ?_)).trans (hdata.sub le_rfl (by unfold serverAddrOffset sizeofNetAddress; omega))
  have hy' := h.layout.node_data (Or.inl hy) hq himax
  unfold sizeofServer at hy'
  unfold serverAddrOffset sizeofNetAddress
  omega

/-- **A pool with room takes the server.** -/
theorem Models.takesServer (h : Models L s pool servers) (hp : p ∈ s.pools)
    (hroom : (pool p).num < maxServer) (addr : Memory) :
    TakesServer L s p addr (InMemory.serverPoolAddServer L s.mem p addr).1
      (InMemory.serverPoolAddServer L s.mem p addr).2 := by
  have hsrv : (InMemory.serverPoolAddServer L s.mem p addr).1 = entry p (pool p).num := by
    rw [h.serverPoolAddServer_eq hp]
  have hadd := h.add hp hroom addr
  rw [hsrv]
  refine ⟨?_, ⟨_, hroom, rfl⟩, fun hadded => ?_, fun x => ?_, fun i => h.addr_add hp hroom addr,
    fun x => h.kept_add hp hroom addr, ⟨_, h.onList, hadd.onList⟩⟩
  · have hin := entry_bounds p hroom
    omega
  · obtain ⟨q, hq, i, hi, he⟩ := h.isAdded_iff.mp hadded
    obtain ⟨rfl, rfl⟩ := entry_inj h.layout hp hq hroom (lt_of_lt_of_le hi (h.num_le q hq)) he
    exact lt_irrefl _ hi
  · -- on the list of the model it is in front
    have hlist : ∀ {s' : ServerHeap} {pool' servers'}, Models L s' pool' servers' →
        (IsAdded s' x ↔ ∃ srv ∈ servers', x = entry srv.1 srv.2) := fun h' => by
      rw [h'.isAdded_iff]
      constructor
      · rintro ⟨q, hq, i, hi, hx⟩
        exact ⟨(q, i), (h'.mem_list (q, i)).mpr ⟨hq, hi⟩, hx⟩
      · rintro ⟨srv, hmem, hx⟩
        obtain ⟨hq, hi⟩ := (h'.mem_list srv).mp hmem
        exact ⟨srv.1, hq, srv.2, hi, hx⟩
    rw [hlist hadd, hlist h, List.exists_mem_cons_iff]

/-- **A full pool does not refuse it**: what is returned is the address behind the array, where
the counters are. -/
theorem Models.serverPoolAddServer_full (h : Models L s pool servers) (hp : p ∈ s.pools)
    (hfull : (pool p).num = maxServer) (addr : Memory) :
    (InMemory.serverPoolAddServer L s.mem p addr).1 = p + poolNumOffset := by
  rw [h.serverPoolAddServer_eq hp, hfull]
  unfold entry poolNumOffset
  rw [Nat.mul_comm maxServer, Nat.add_assoc]

/-- **A call is as meant if and only if it has room.** -/
theorem Models.addsAsMeant_iff (h : Models L s pool servers)
    (hstep : (serverSystem L).step s l t) : AddsAsMeant L s l ↔ HasRoom s l := by
  cases l with
  | create malloc => exact ⟨fun _ => trivial, fun _ => h.withinArrays⟩
  | get vs srv => exact ⟨fun _ => trivial, fun _ => h.withinArrays⟩
  | add p addr srv =>
    obtain ⟨hp, -, -⟩ := hstep
    constructor
    · rintro ⟨-, -, hrefuse⟩
      by_contra hno
      have hfull : (pool p).num = maxServer := le_antisymm (h.num_le p hp)
        (not_lt.mp (fun hlt => hno ((h.num_lt_iff hp).mpr hlt)))
      have hzero := (hrefuse hno).srv_eq
      rw [h.serverPoolAddServer_full hp hfull] at hzero
      have hpos := (h.layout.bounds p hp).1
      omega
    · intro hroom
      exact ⟨h.withinArrays, fun _ => h.takesServer hp ((h.num_lt_iff hp).mp hroom) addr,
        fun hno => absurd hroom hno⟩

/-- **The calls do what they are meant to in exactly the runs in which no server is added to a
full pool**, and then no pool is past its array in any state. -/
theorem serverSystem_addsAsMeant_iff (L : ServerHeads) {s : ServerHeap}
    (hinit : (serverSystem L).init s) (ls : List ServerCall) (t : ServerHeap) :
    ((serverSystem L).restrict (AddsAsMeant L)).Run s ls t ∧ WithinArrays t
      ↔ ((serverSystem L).restrict HasRoom).Run s ls t := by
  constructor
  · rintro ⟨hrun, -⟩
    induction hrun with
    | nil => exact System.Run.nil
    | snoc hrun hlast ih =>
      obtain ⟨pool, servers, h⟩ := Models.of_run hinit ih
      exact ih.snoc ⟨(h.addsAsMeant_iff hlast.2).mp hlast.1, hlast.2⟩
  · intro hrun
    refine ⟨?_, ?_⟩
    · induction hrun with
      | nil => exact System.Run.nil
      | snoc hrun hlast ih =>
        obtain ⟨pool, servers, h⟩ := Models.of_run hinit hrun
        exact ih.snoc ⟨(h.addsAsMeant_iff hlast.2).mpr hlast.1, hlast.2⟩
    · obtain ⟨pool, servers, h⟩ := Models.of_run hinit hrun
      exact h.withinArrays

end Adds

/-! ## A full pool -/

section Full

variable {L : ServerHeads} {s t : ServerHeap} {pool : ℕ → ServerPool}
  {servers : List ServerPtr} {p : ℕ}

/-- **The link of a server too many is stored over the counters**: the number of servers becomes
the low half of the address of the server that is first on the list. -/
theorem Models.poolNum_full (h : Models L s pool servers) (hp : p ∈ s.pools)
    (hfull : (pool p).num = maxServer) (addr : Memory)
    (hhead : L.server_list + nodeSize ≤ p ∨ p + 5176 ≤ L.server_list) :
    poolNum (InMemory.serverPoolAddServer L s.mem p addr).2 p
      = (UInt32.ofNat (nodeNext s.mem L.server_list)).toInt32 := by
  have hnum : poolNumOffset = 5136 := rfl
  have hnode : nodeSize = 16 := rfl
  have he : entry p (pool p).num = p + poolNumOffset := by
    rw [← h.serverPoolAddServer_full hp hfull addr, h.serverPoolAddServer_eq hp]
  have hnext : nodeNext (entryWritten s.mem p (p + poolNumOffset) addr) L.server_list
      = nodeNext s.mem L.server_list :=
    nodeNext_congr (agree_entryWritten _ _ (by omega) (by omega))
  -- the link to the next server is stored third, and what follows is stored elsewhere
  have hkeep : Agree (InMemory.serverPoolAddServer L s.mem p addr).2
      (setNext (setPrev (entryWritten s.mem p (p + poolNumOffset) addr)
        (nodeNext s.mem L.server_list) (p + poolNumOffset)) (p + poolNumOffset)
        (nodeNext s.mem L.server_list)) (p + poolNumOffset) 4 := by
    rw [h.serverPoolAddServer_eq hp, he, listAdd, hnext]
    exact (agree_setNext _ _ (by omega)).trans (agree_setPrev _ _ (by omega))
  rw [poolNum, loadInt_congr hkeep, loadInt, load32_eq_ofNat, setNext, storeNat,
    loadNat_of_bytes (fun i hi => storeBytes_add (by omega))]
  refine congrArg UInt32.toInt32 ?_
  rw [← UInt32.toNat_inj, UInt32.toNat_ofNat', UInt32.toNat_ofNat']
  exact Nat.mod_mod_of_dvd _ (by norm_num)

/-- The calls that add a number of servers to an empty pool. -/
def fillCalls (p : ℕ) (addr : Memory) (n : ℕ) : List ServerCall :=
  (List.range n).map (fun i => .add p addr (entry p i))

/-- **A pool can be filled.** -/
theorem Models.fill (h : Models L s pool servers) (hp : p ∈ s.pools) (hempty : (pool p).num = 0)
    (addr : Memory) {n : ℕ} (hn : n ≤ maxServer) :
    ∃ t, ((serverSystem L).restrict HasRoom).Run s (fillCalls p addr n) t ∧ t.pools = s.pools
      ∧ ∃ pool servers, Models L t pool servers ∧ (pool p).num = n := by
  induction n with
  | zero => exact ⟨s, System.Run.nil, rfl, pool, servers, h, hempty⟩
  | succ n ih =>
    obtain ⟨t, hrun, hpools, pool, servers, ht, hnum⟩ := ih (by omega)
    have hpt : p ∈ t.pools := hpools ▸ hp
    have hroom : HasRoom t (.add p addr (entry p n)) :=
      (ht.num_lt_iff hpt).mpr (by omega)
    have hsrv : (InMemory.serverPoolAddServer L t.mem p addr).1 = entry p n := by
      rw [ht.serverPoolAddServer_eq hpt, hnum]
    have hstep : (serverSystem L).step t (.add p addr (entry p n))
        ⟨(InMemory.serverPoolAddServer L t.mem p addr).2, t.pools⟩ :=
      ⟨hpt, hsrv ▸ rfl, rfl⟩
    refine ⟨⟨(InMemory.serverPoolAddServer L t.mem p addr).2, t.pools⟩, ?_, hpools, _, _,
      ht.step hroom hstep, ?_⟩
    · rw [fillCalls, List.range_succ, List.map_append]
      exact hrun.snoc ⟨hroom, hstep⟩
    · show (Function.update pool p _ p).num = n + 1
      rw [Function.update_self]
      exact congrArg (· + 1) hnum

/-- Two list heads. -/
def twoHeads : ServerHeads := ⟨64, 96, Or.inl (by decide), by decide, by decide⟩

/-- Both lists are empty, and there is no pool. -/
def noPools : ServerHeap := ⟨listInit (listInit (fun _ => 0) 64) 96, []⟩

theorem noPools_init : (serverSystem twoHeads).init noPools :=
  ⟨rfl, (circular_listInit _ (by decide)).congr (fun x hx => by
      rw [List.mem_singleton.mp hx]
      exact agree_listInit _ (Or.inl (by decide))),
    circular_listInit _ (by decide)⟩

/-- One pool. -/
def onePool : ServerHeap :=
  ⟨(InMemory.serverPoolCreate twoHeads (some 4096) noPools.mem).2, [4096]⟩

theorem onePool_step : (serverSystem twoHeads).step noPools (.create (some 4096)) onePool := by
  refine ⟨?_, rfl⟩
  rintro sp ⟨⟩
  refine ⟨by decide, by decide, fun q hq => absurd hq List.not_mem_nil, fun h hh => ?_⟩
  rcases hh with rfl | rfl
  · exact Or.inl (by decide)
  · exact Or.inl (by decide)

/-- It can be filled. -/
theorem onePool_fill {n : ℕ} (hn : n ≤ maxServer) :
    ∃ t, ((serverSystem twoHeads).restrict HasRoom).Run noPools
        (.create (some 4096) :: fillCalls 4096 (fun _ => 0) n) t
      ∧ t.pools = [4096] ∧ ∃ pool servers, Models twoHeads t pool servers
        ∧ (pool 4096).num = n := by
  have hroom : HasRoom noPools (.create (some 4096)) := trivial
  have hone := (Models.of_init noPools_init (fun _ => newPool noPools.mem 0)).step hroom
    onePool_step
  obtain ⟨t, hrun, hpools, hmodels⟩ :=
    hone.fill (List.mem_singleton_self 4096) (by rfl) (fun _ => 0) hn
  have hfirst : ((serverSystem twoHeads).restrict HasRoom).Run noPools [.create (some 4096)]
      onePool := System.Run.single ⟨hroom, onePool_step⟩
  exact ⟨t, hfirst.append hrun, hpools, hmodels⟩

/-- The calls that fill it do what they are meant to. -/
theorem onePool_filled : ∃ t,
    ((serverSystem twoHeads).restrict (AddsAsMeant twoHeads)).Run noPools
      (.create (some 4096) :: fillCalls 4096 (fun _ => 0) 64) t ∧ WithinArrays t := by
  obtain ⟨t, hrun, -⟩ := onePool_fill le_rfl
  exact ⟨t, (serverSystem_addsAsMeant_iff twoHeads noPools_init _ t).mpr hrun⟩

/-- **A pool past its array.** The call after those returns the address of the counters, and the
number of servers is then more than `MAX_SERVER`. -/
theorem onePool_overrun : ∃ t, (serverSystem twoHeads).Run noPools
      (.create (some 4096) :: fillCalls 4096 (fun _ => 0) 64 ++ [.add 4096 (fun _ => 0) 9232]) t
    ∧ 4096 ∈ t.pools ∧ Int32.ofNat maxServer < poolNum t.mem 4096 := by
  obtain ⟨t, hrun, hpools, pool, servers, ht, hfull⟩ := onePool_fill le_rfl
  have hpt : 4096 ∈ t.pools := hpools ▸ List.mem_singleton_self 4096
  have hstep : (serverSystem twoHeads).step t (.add 4096 (fun _ => 0) 9232)
      ⟨(InMemory.serverPoolAddServer twoHeads t.mem 4096 (fun _ => 0)).2, t.pools⟩ := by
    have hsrv := ht.serverPoolAddServer_full hpt hfull (fun _ => 0)
    exact ⟨hpt, Prod.ext hsrv.symm rfl, rfl⟩
  refine ⟨_, hrun.of_restrict.snoc hstep, hpt, ?_⟩
  show _ < poolNum (InMemory.serverPoolAddServer twoHeads t.mem 4096 (fun _ => 0)).2 4096
  rw [ht.poolNum_full hpt hfull _ (Or.inl (by decide)), ht.list.nodeNext_eq]
  have hmax : IntIs (Int32.ofNat maxServer) maxServer := rfl
  have hmaxServer : maxServer = 64 := rfl
  -- the first server on the list is one of the pool
  cases servers with
  | nil =>
    have hzero : 0 < (pool 4096).num := by omega
    exact absurd ((ht.mem_list (4096, 0)).mpr ⟨hpt, hzero⟩) List.not_mem_nil
  | cons srv rest =>
    obtain ⟨hq, hi⟩ := (ht.mem_list srv).mp List.mem_cons_self
    rw [hpools] at hq
    have hq' : srv.1 = 4096 := List.mem_singleton.mp hq
    rw [hq', hfull] at hi
    have hentry : entry srv.1 srv.2 = 4112 + 80 * srv.2 := by
      rw [hq']
      rfl
    have hintMax : intMax = 2147483647 := rfl
    refine (hmax.lt_iff (IntIs.ofNat (n := entry srv.1 srv.2) ?_)).mpr ?_
    · omega
    · omega

end Full

end ServerHeap
