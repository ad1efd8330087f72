import Ustack.ListCalls
import Ustack.PoolAdds

/-!
# Freeing server pools

`server_pool_free` on bytes. The servers of a pool are inside it and on a list of their own
that goes through all pools, so before its memory is given back each of them has to be taken
off that list, and the pool off the list of pools: a link that stayed would lead every later
walk over the servers into memory that is somebody else's.

In every run in which no server is added to a full pool, with pools freed at any time and
their memory overwritten or used for other pools, a walk over either list meets what is
alive and nothing else (`poolSystem_safe`).
-/

namespace InMemory

/-- The loop of `server_pool_free`, from the server `i`. -/
def serverPoolFreeLoop (p : ℕ) : ℕ → Int32 → Memory → Option Memory
  | 0, _, _ => none
  | fuel + 1, i, m =>
    if i < poolNum m p then serverPoolFreeLoop p fuel (i + 1) (listDel m (serverEntry p i))
    else some m

/-- `server_pool_free`. -/
def serverPoolFree (fuel : ℕ) (m : Memory) (p : ℕ) : Option Memory :=
  (serverPoolFreeLoop p fuel 0 m).map (listDel · p)

end InMemory

namespace ServerHeap

/-- What happens to the pools. -/
inductive PoolCall
  /-- A call that frees nothing. -/
  | call (l : ServerCall)
  /-- `server_pool_free`. -/
  | free (p : ℕ)
  /-- Stores to anything but pools and list heads. -/
  | store (m : Memory)

/-- **Server pools under any calls**, freed ones among them. Servers are only added to pools
with room. -/
def poolSystem (L : ServerHeads) : System ServerHeap PoolCall where
  init := (serverSystem L).init
  step s l t :=
    match l with
    | .call l => HasRoom s l ∧ (serverSystem L).step s l t
    | .free p => p ∈ s.pools ∧ (∃ fuel, InMemory.serverPoolFree fuel s.mem p = some t.mem)
        ∧ t.pools = s.pools.erase p
    | .store m => (∀ p ∈ s.pools, Agree m s.mem p sizeofServerPool)
        ∧ (∀ h, h = L.server_list ∨ h = L.server_pool_list → Agree m s.mem h nodeSize)
        ∧ t = ⟨m, s.pools⟩

/-! ## Stores to nodes -/

/-- At most the bytes of certain nodes differ. -/
def OnlyNodes (P : ℕ → Prop) (m' m : Memory) : Prop :=
  ∀ off k, (∀ x, P x → off + k ≤ x ∨ x + nodeSize ≤ off) → Agree m' m off k

section Nodes

variable {L : ServerHeads} {pools : List ℕ} {P Q : ℕ → Prop} {m m' m'' : Memory}
  {head x p : ℕ} {xs : List ℕ}

/-- Taking a node out of a list stores to nodes of that list. -/
theorem onlyNodes_listDel (h : Circular m head xs) (hx : x ∈ xs)
    (hP : ∀ y ∈ head :: xs, P y) : OnlyNodes P (listDel m x) m := by
  obtain ⟨hprev, hnext⟩ := (circular_iff_ring.mp h).neighbours hx
  rw [prev_pointers] at hprev
  rw [next_pointers] at hnext
  exact fun off k hoff => agree_listDel m (hoff _ (hP _ hprev)) (hoff _ (hP _ hnext))

/-- Pools are the same where only nodes differ. -/
theorem OnlyNodes.holds (h : OnlyNodes P m' m) (hl : Layout L pools)
    (hP : ∀ y, P y → IsNode L pools y) (hp : p ∈ pools) {sp : ServerPool} (hsp : Holds m p sp) :
    Holds m' p sp := by
  have hsize : sizeofServerPool = poolNumOffset + 16 := rfl
  have hserver : sizeofServer = 80 := rfl
  refine hsp.congr (h _ _ (fun y hy => ?_)) (fun i hi => h _ _ (fun y hy => ?_))
  · have hcounters := hl.node_counters (hP y hy) hp
    omega
  · have hdata := hl.node_data (hP y hy) hp hi
    omega

/-- So is a list of other nodes. -/
theorem OnlyNodes.circular (h : OnlyNodes P m' m)
    (hapart : ∀ x ∈ head :: xs, ∀ y, P y → chunksApart nodeSize x y) (hc : Circular m head xs) :
    Circular m' head xs :=
  hc.congr (fun x hx => h _ _ (fun y hy => hapart x hx y hy))

end Nodes

/-! ## Freeing a pool -/

section Free

variable {L : ServerHeads} {s t : ServerHeap} {pool : ℕ → ServerPool}
  {servers : List ServerPtr} {p : ℕ}

/-- The servers that are on the list when those of a pool before `k` are off it. -/
def listed (servers : List ServerPtr) (p k : ℕ) : List ServerPtr :=
  servers.filter (fun srv => ¬ (srv.1 = p ∧ srv.2 < k))

/-- **In the middle of the loop**: the first servers of the pool are off the list, and nothing
else has changed. -/
structure Freeing (L : ServerHeads) (s : ServerHeap) (pool : ℕ → ServerPool)
    (servers : List ServerPtr) (p k : ℕ) (m : Memory) : Prop where
  /-- The pools are in memory. -/
  holds : ∀ q ∈ s.pools, Holds m q (pool q)
  /-- The list of servers. -/
  list : Circular m L.server_list ((listed servers p k).map (fun srv => entry srv.1 srv.2))
  /-- The list of pools. -/
  pool_list : Circular m L.server_pool_list s.pools

/-- Before the loop. -/
theorem Models.freeing (h : Models L s pool servers) (p : ℕ) :
    Freeing L s pool servers p 0 s.mem := by
  have hall : listed servers p 0 = servers :=
    List.filter_eq_self.mpr (fun srv _ => by simp)
  refine ⟨h.holds, ?_, h.pool_list⟩
  rw [hall]
  exact h.list

/-- The nodes that are still on the list do not overlap. -/
theorem Models.pairwise_listed (h : Models L s pool servers) (p k : ℕ) :
    (L.server_list :: (listed servers p k).map (fun srv => entry srv.1 srv.2)).Pairwise
      (chunksApart nodeSize) :=
  h.pairwise_nodes.sublist (List.filter_sublist.map _ |>.cons_cons _)

theorem Models.isServerNode_listed (h : Models L s pool servers) {k x : ℕ}
    (hx : x ∈ L.server_list :: (listed servers p k).map (fun srv => entry srv.1 srv.2)) :
    IsServerNode L s.pools x :=
  h.isServerNode ((List.filter_sublist.map _ |>.cons_cons _).subset hx)

/-- **One more server is off the list.** -/
theorem Models.erase_listed (h : Models L s pool servers) (hp : p ∈ s.pools) {k : ℕ}
    (hk : k < maxServer) :
    ((listed servers p k).map (fun srv => entry srv.1 srv.2)).erase (entry p k)
      = (listed servers p (k + 1)).map (fun srv => entry srv.1 srv.2) := by
  have hnodup : ((listed servers p k).map (fun srv => entry srv.1 srv.2)).Nodup :=
    (List.pairwise_cons.mp (h.pairwise_listed p k)).2.imp (fun {a b} hab he => by
      unfold chunksApart nodeSize at hab
      omega)
  rw [hnodup.erase_eq_filter, List.filter_map, listed, List.filter_filter, listed]
  refine congrArg (List.map _) (List.filter_congr (fun srv hsrv => ?_))
  obtain ⟨hq, hlt⟩ := (h.mem_list srv).mp hsrv
  have hmax : srv.2 < maxServer := lt_of_lt_of_le hlt (h.num_le _ hq)
  have hentry : entry srv.1 srv.2 = entry p k ↔ srv.1 = p ∧ srv.2 = k :=
    ⟨entry_inj h.layout hq hp hmax hk, fun ⟨hp', hk'⟩ => by rw [hp', hk']⟩
  rw [Bool.eq_iff_iff]
  simp only [Function.comp_apply, bne_iff_ne, ne_eq, hentry, Bool.and_eq_true, decide_eq_true_eq]
  omega

/-- **A round of the loop.** -/
theorem Freeing.next (hf : Freeing L s pool servers p k m) (h : Models L s pool servers)
    (hp : p ∈ s.pools) (hk : k < (pool p).num) :
    Freeing L s pool servers p (k + 1) (listDel m (entry p k)) := by
  have hmax : k < maxServer := lt_of_lt_of_le hk (h.num_le p hp)
  have hmem : entry p k ∈ (listed servers p k).map (fun srv => entry srv.1 srv.2) := by
    refine List.mem_map.mpr ⟨(p, k), List.mem_filter.mpr ⟨(h.mem_list _).mpr ⟨hp, hk⟩, ?_⟩, rfl⟩
    simp
  have honly : OnlyNodes (IsServerNode L s.pools) (listDel m (entry p k)) m :=
    onlyNodes_listDel hf.list hmem (fun y hy => h.isServerNode_listed hy)
  refine ⟨fun q hq => honly.holds h.layout (fun _ => Or.inl) hq (hf.holds q hq), ?_, ?_⟩
  · have hdel := hf.list.del (h.pairwise_listed p k) (fun y hy => ?_) hmem
    · rwa [h.erase_listed hp hmax] at hdel
    · have hlt := h.layout.serverNode_lt (h.isServerNode_listed hy)
      unfold nodeSize at hlt
      omega
  · exact honly.circular
      (fun x hx y hy => (h.layout.lists_apart hy (List.mem_cons.mp hx)).symm) hf.pool_list

/-- **The loop ends** when the servers of the pool are off the list. -/
theorem Freeing.loop (hf : Freeing L s pool servers p k m) (h : Models L s pool servers)
    (hp : p ∈ s.pools) (hk : k ≤ (pool p).num) {fuel : ℕ} (hfuel : (pool p).num - k < fuel) :
    ∃ m', InMemory.serverPoolFreeLoop p fuel (Int32.ofNat k) m = some m'
      ∧ Freeing L s pool servers p (pool p).num m' := by
  induction fuel generalizing k m with
  | zero => exact absurd hfuel (Nat.not_lt_zero _)
  | succ fuel ih =>
    have hnum := (hf.holds p hp).num
    have hmax := h.num_le p hp
    have hintMax : maxServer + 1 ≤ intMax := by decide
    have hint : IntIs (Int32.ofNat k) k := IntIs.ofNat (by omega)
    rw [InMemory.serverPoolFreeLoop]
    by_cases hlt : k < (pool p).num
    · have hnext : (Int32.ofNat k) + 1 = Int32.ofNat (k + 1) := by
        have hone : IntIs (1 : Int32) 1 := rfl
        exact (hint.add hone (by omega)).inj (IntIs.ofNat (by omega))
      rw [if_pos ((hint.lt_iff hnum).mpr hlt), hnext,
        entry_of_int hint (by omega) (h.layout.bounds p hp).2]
      exact ih (hf.next h hp hlt) hlt (by omega)
    · have hend : k = (pool p).num := le_antisymm hk (not_lt.mp hlt)
      rw [if_neg (fun hlt' => hlt ((hint.lt_iff hnum).mp hlt'))]
      exact ⟨m, rfl, hend ▸ hf⟩

/-- The pools that are left do not overlap. -/
theorem Layout.erase {pools : List ℕ} (hl : Layout L pools) (p : ℕ) : Layout L (pools.erase p) :=
  ⟨fun q hq => hl.bounds q (List.mem_of_mem_erase hq),
    hl.apart.sublist List.erase_sublist,
    fun q hq => hl.heads q (List.mem_of_mem_erase hq)⟩

theorem Layout.nodup {pools : List ℕ} (hl : Layout L pools) : pools.Nodup :=
  hl.apart.imp (fun {a b} hab he => by
    have hsize : sizeofServerPool = 5152 := rfl
    unfold chunksApart at hab
    omega)

/-- **A pool is freed**: its servers are off the list of servers, it is off the list of pools,
and the others are as they were. -/
theorem Models.free (h : Models L s pool servers) (hp : p ∈ s.pools) {fuel : ℕ}
    (hfuel : maxServer < fuel) :
    ∃ m', InMemory.serverPoolFree fuel s.mem p = some m'
      ∧ Models L ⟨m', s.pools.erase p⟩ pool (servers.filter (fun srv => srv.1 ≠ p)) := by
  obtain ⟨m, hm, hf⟩ := (h.freeing p).loop h hp (Nat.zero_le _)
    (lt_of_le_of_lt (Nat.sub_le _ _) (lt_of_le_of_lt (h.num_le p hp) hfuel))
  have hleft : listed servers p (pool p).num = servers.filter (fun srv => srv.1 ≠ p) := by
    refine List.filter_congr (fun srv hsrv => ?_)
    obtain ⟨-, hlt⟩ := (h.mem_list srv).mp hsrv
    refine decide_eq_decide.mpr (not_congr ⟨fun hboth => hboth.1, fun he => ⟨he, ?_⟩⟩)
    rwa [he] at hlt
  have hlist := hf.list
  rw [hleft] at hlist
  have honly : OnlyNodes (IsPoolNode L s.pools) (listDel m p) m :=
    onlyNodes_listDel hf.pool_list hp (fun y hy => List.mem_cons.mp hy)
  have hdel := hf.pool_list.del h.layout.pairwise_poolNodes
    (fun x hx => h.layout.poolNode_lt (List.mem_cons.mp hx)) hp
  have hfree : InMemory.serverPoolFree fuel s.mem p = some (listDel m p) := by
    have hloop : InMemory.serverPoolFreeLoop p fuel 0 s.mem = some m := hm
    rw [InMemory.serverPoolFree, hloop, Option.map_some]
  generalize listDel m p = m' at honly hdel hfree
  have hwithout : ∀ q ∈ s.pools.erase p, q ∈ s.pools := fun q hq => List.mem_of_mem_erase hq
  refine ⟨m', hfree, h.layout.erase p, fun q hq => ?_, fun q hq => h.num_le q (hwithout q hq),
    fun q hq => h.next_ok q (hwithout q hq), ?_, fun srv => ?_, h.nodup.filter _, hdel⟩
  · exact honly.holds h.layout (fun _ => Or.inr) (hwithout q hq) (hf.holds q (hwithout q hq))
  · refine honly.circular (fun x hx y hy => h.layout.lists_apart ?_ hy) hlist
    exact h.isServerNode ((List.filter_sublist.map _ |>.cons_cons _).subset hx)
  · rw [List.mem_filter, h.mem_list, h.layout.nodup.mem_erase_iff, decide_eq_true_eq]
    exact ⟨fun ⟨⟨hq, hlt⟩, hne⟩ => ⟨⟨hne, hq⟩, hlt⟩, fun ⟨⟨hne, hq⟩, hlt⟩ => ⟨⟨hq, hlt⟩, hne⟩⟩

/-- **Stores elsewhere** change no pool and no list. -/
theorem Models.store (h : Models L s pool servers) {m : Memory}
    (hpools : ∀ p ∈ s.pools, Agree m s.mem p sizeofServerPool)
    (hheads : ∀ a, a = L.server_list ∨ a = L.server_pool_list → Agree m s.mem a nodeSize) :
    Models L ⟨m, s.pools⟩ pool servers := by
  have hsize : sizeofServerPool = poolNumOffset + 16 := rfl
  have hnode : nodeSize = 16 := rfl
  refine ⟨h.layout, fun p hp => (h.holds p hp).congr ?_ (fun i hi => ?_), h.num_le, h.next_ok,
    h.list.congr (fun x hx => ?_), h.mem_list, h.nodup, h.pool_list.congr (fun x hx => ?_)⟩
  · exact (hpools p hp).sub (Nat.le_add_right _ _) (by omega)
  · have hentry := entry_bounds p hi
    exact (hpools p hp).sub (by omega) (by omega)
  · obtain rfl | ⟨q, hq, i, hi, rfl⟩ := h.isServerNode hx
    · exact hheads _ (Or.inl rfl)
    · have hentry := entry_bounds q hi
      exact (hpools q hq).sub (by omega) (by omega)
  · rcases List.mem_cons.mp hx with rfl | hx
    · exact hheads _ (Or.inr rfl)
    · exact (hpools x hx).sub le_rfl (by omega)

end Free

/-! ## Every run -/

section Runs

variable {L : ServerHeads} {s : ServerHeap}

/-- More rounds answer the same. -/
theorem serverPoolFreeLoop_mono {p : ℕ} {m' : Memory} :
    ∀ {fuel fuel' : ℕ} {i : Int32} {m : Memory}, fuel ≤ fuel' →
      InMemory.serverPoolFreeLoop p fuel i m = some m' →
      InMemory.serverPoolFreeLoop p fuel' i m = some m'
  | 0, _, _, _, _, h => nomatch h
  | fuel + 1, 0, _, _, hle, _ => absurd hle (Nat.not_succ_le_zero fuel)
  | fuel + 1, fuel' + 1, i, m, hle, h => by
    rw [InMemory.serverPoolFreeLoop] at h ⊢
    by_cases hi : i < poolNum m p
    · rw [if_pos hi] at h ⊢
      exact serverPoolFreeLoop_mono (Nat.le_of_succ_le_succ hle) h
    · rwa [if_neg hi] at h ⊢

theorem serverPoolFree_mono {p fuel fuel' : ℕ} {m m' : Memory} (hle : fuel ≤ fuel')
    (h : InMemory.serverPoolFree fuel m p = some m') :
    InMemory.serverPoolFree fuel' m p = some m' := by
  rw [InMemory.serverPoolFree, Option.map_eq_some_iff] at h ⊢
  obtain ⟨m₁, hm₁, hdel⟩ := h
  exact ⟨m₁, serverPoolFreeLoop_mono hle hm₁, hdel⟩

/-- The pools are in memory after every run. -/
theorem Models.of_reachable (h : (poolSystem L).Reachable s) :
    ∃ pool servers, Models L s pool servers := by
  have hinit : ∀ s, (poolSystem L).init s → ∃ pool servers, Models L s pool servers :=
    fun s hs => ⟨fun _ => newPool s.mem 0, [], Models.of_init hs _⟩
  refine System.invariant hinit ?_ h
  rintro s l t ⟨pool, servers, hs⟩ hst
  cases l with
  | call l => exact ⟨_, _, hs.step hst.1 hst.2⟩
  | free p =>
    obtain ⟨hp, ⟨fuel, hfuel⟩, hpools⟩ := hst
    obtain ⟨m', hm', ht⟩ := hs.free hp (Nat.lt_succ_of_le (Nat.le_max_left maxServer fuel))
    have hsame := serverPoolFree_mono (Nat.le_succ_of_le (Nat.le_max_right maxServer fuel)) hfuel
    have hmem : t = ⟨m', s.pools.erase p⟩ := by
      rw [← hpools, ← Option.some_inj.mp (hsame.symm.trans hm')]
    rw [hmem]
    exact ⟨_, _, ht⟩
  | store m =>
    obtain ⟨hpools, hheads, rfl⟩ := hst
    exact ⟨_, _, hs.store hpools hheads⟩

/-- **No link leads out of the pools alive.** -/
structure PoolsSafe (L : ServerHeads) (s : ServerHeap) : Prop where
  /-- No pool has more servers than its array. -/
  within : WithinArrays s
  /-- A walk over the servers meets those of the pools, each once, and ends. -/
  servers : ∃ xs, xs.Nodup ∧ (∀ x, x ∈ xs ↔ IsAdded s x)
    ∧ ∀ fuel, xs.length < fuel → listForEach s.mem L.server_list fuel = some xs
  /-- They are inside the pools. -/
  inside : ∀ x, IsAdded s x → ∃ p ∈ s.pools, p < x ∧ x + sizeofServer ≤ p + sizeofServerPool
  /-- A walk over the pools meets them, each once, and ends. -/
  pools : s.pools.Nodup ∧ ∀ fuel, s.pools.length < fuel →
    listForEach s.mem L.server_pool_list fuel = some s.pools
  /-- A pool can be freed. -/
  frees : ∀ p ∈ s.pools, ∀ fuel, maxServer < fuel →
    (InMemory.serverPoolFree fuel s.mem p).isSome

/-- **What is freed is on no list**: in every run of the calls, with pools freed and their memory
used again, both lists hold what is alive. -/
theorem poolSystem_safe (h : (poolSystem L).Reachable s) : PoolsSafe L s := by
  obtain ⟨pool, servers, hs⟩ := Models.of_reachable h
  obtain ⟨hcircular, hnodup⟩ := hs.onList
  obtain ⟨hhead, hservers⟩ := List.nodup_cons.mp hnodup
  refine ⟨hs.withinArrays, ⟨_, hservers, fun x => ?_, fun fuel hfuel => ?_⟩, fun x hx => ?_,
    ⟨hs.layout.nodup, fun fuel hfuel => ?_⟩, fun p hp fuel hfuel => ?_⟩
  · rw [hs.isAdded_iff, List.mem_map]
    constructor
    · rintro ⟨srv, hsrv, rfl⟩
      obtain ⟨hq, hlt⟩ := (hs.mem_list srv).mp hsrv
      exact ⟨srv.1, hq, srv.2, hlt, rfl⟩
    · rintro ⟨q, hq, i, hi, rfl⟩
      exact ⟨(q, i), (hs.mem_list (q, i)).mpr ⟨hq, hi⟩, rfl⟩
  · exact (circular_iff_ring.mp hcircular).walk_eq hhead hfuel
  · obtain ⟨q, hq, i, hi, rfl⟩ := hs.isAdded_iff.mp hx
    have hentry := entry_bounds q (lt_of_lt_of_le hi (hs.num_le q hq))
    have hsize : sizeofServerPool = poolNumOffset + 16 := rfl
    have hserver : sizeofServer = 80 := rfl
    exact ⟨q, hq, by omega, by omega⟩
  · refine (circular_iff_ring.mp hs.pool_list).walk_eq (fun hmem => ?_) hfuel
    have hapart := (List.pairwise_cons.mp hs.layout.pairwise_poolNodes).1 _ hmem
    unfold chunksApart nodeSize at hapart
    omega
  · obtain ⟨m', hm', -⟩ := hs.free hp hfuel
    rw [hm']
    rfl

end Runs

/-- A pool is created, gets a server, and is freed again. -/
theorem reachable_freed : ∃ s, (poolSystem twoHeads).Reachable s ∧ s.pools = [] := by
  have hstart : (poolSystem twoHeads).Reachable noPools := .of_init noPools_init
  have hone : (poolSystem twoHeads).Reachable onePool :=
    hstart.step (l := .call (.create (some 4096))) ⟨trivial, onePool_step⟩
  have hmem : 4096 ∈ onePool.pools := List.mem_singleton_self 4096
  have hmodels := (Models.of_init noPools_init (fun _ => newPool noPools.mem 0)).step
    (l := .create (some 4096)) trivial onePool_step
  let served : ServerHeap :=
    ⟨(InMemory.serverPoolAddServer twoHeads onePool.mem 4096 (fun _ => 0)).2, onePool.pools⟩
  have hadded : (poolSystem twoHeads).Reachable served := by
    refine hone.step (l := .call (.add 4096 (fun _ => 0)
      (InMemory.serverPoolAddServer twoHeads onePool.mem 4096 (fun _ => 0)).1)) ⟨?_, hmem, rfl, rfl⟩
    exact (hmodels.num_lt_iff hmem).mpr (by decide)
  obtain ⟨m, hm⟩ := Option.isSome_iff_exists.mp
    ((poolSystem_safe hadded).frees 4096 hmem 65 (by decide))
  exact ⟨⟨m, []⟩, hadded.step (l := .free 4096) ⟨hmem, ⟨65, hm⟩, rfl⟩, rfl⟩

/-- The list of servers is empty again. -/
theorem poolSystem_safe_freed : ∃ s, (poolSystem twoHeads).Reachable s
    ∧ listForEach s.mem twoHeads.server_list 1 = some [] := by
  obtain ⟨s, hs, hpools⟩ := reachable_freed
  obtain ⟨xs, -, hmem, hwalk⟩ := (poolSystem_safe hs).servers
  have hxs : xs = [] := by
    refine List.eq_nil_iff_forall_not_mem.mpr (fun x hx => ?_)
    obtain ⟨q, hq, -⟩ := (hmem x).mp hx
    rw [hpools] at hq
    exact List.not_mem_nil hq
  rw [hxs] at hwalk
  exact ⟨s, hs, hwalk 1 Nat.one_pos⟩

end ServerHeap
