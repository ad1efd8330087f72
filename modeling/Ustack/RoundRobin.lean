import Ustack.Cyclic
import Ustack.PoolAdds

/-!
# Servers in turn

`server_pool_get_server` deals out the servers of a pool by a cursor that wraps at
the number of servers. While no server is added, what it deals out is a window of
the ring of servers, from wherever the cursor is, and so every server is dealt out
as often as any other, up to once (`serverSystem_inTurn`). Which virtual servers
the calls are for makes no difference, and a pool may grow between two windows
with its cursor anywhere.

A history is the calls so far. As long as it adds no more than `MAX_SERVER`
servers to a pool, the servers it added are the entries of the pool in their order
(`History`).
-/

/-! ## What the calls of a run did -/

/-- The server that a call added to a pool. -/
def ServerCall.adds (p : ℕ) : ServerCall → Option ℕ
  | .add q _ srv => if q = p then some srv else none
  | _ => none

/-- The server that a call dealt out of a pool, to any virtual server. -/
def ServerCall.selects (p : ℕ) : ServerCall → Option ℕ
  | .get vs srv => if vs.pool = p then some srv else none
  | _ => none

/-- The servers added to a pool. -/
def added (p : ℕ) (ls : List ServerCall) : List ℕ := ls.filterMap (ServerCall.adds p)

/-- The servers dealt out of a pool. -/
def selected (p : ℕ) (ls : List ServerCall) : List ℕ := ls.filterMap (ServerCall.selects p)

@[simp] theorem added_append (p : ℕ) (ls ms : List ServerCall) :
    added p (ls ++ ms) = added p ls ++ added p ms := List.filterMap_append

@[simp] theorem selected_append (p : ℕ) (ls ms : List ServerCall) :
    selected p (ls ++ ms) = selected p ls ++ selected p ms := List.filterMap_append

theorem added_singleton (p : ℕ) (l : ServerCall) : added p [l] = (l.adds p).toList := by
  cases h : l.adds p with
  | none => exact List.filterMap_cons_none h
  | some srv => exact List.filterMap_cons_some h

theorem selected_singleton (p : ℕ) (l : ServerCall) : selected p [l] = (l.selects p).toList := by
  cases h : l.selects p with
  | none => exact List.filterMap_cons_none h
  | some srv => exact List.filterMap_cons_some h

/-- Dealing out a server changes no number of servers. -/
theorem num_serverPoolGetServer (pool : ℕ → ServerPool) (p q : ℕ) :
    ((serverPoolGetServer pool p).2 q).num = (pool q).num := by
  unfold serverPoolGetServer
  split
  · rfl
  · dsimp only
    by_cases hq : q = p
    · rw [hq, Function.update_self]
    · rw [Function.update_of_ne hq]

namespace ServerHeap

section Calls

variable {L : ServerHeads} {s t : ServerHeap} {pool : ℕ → ServerPool}
  {servers : List ServerPtr} {p q srv : ℕ} {l : ServerCall}

/-- A call creates a pool, or there are the same pools after it. -/
theorem pools_of_step (hstep : (serverSystem L).step s l t) :
    t.pools = s.pools ∨ ∃ sp, l = .create (some sp) ∧ t.pools = sp :: s.pools := by
  cases l with
  | create malloc =>
    obtain ⟨-, rfl⟩ := hstep
    cases malloc with
    | none => exact Or.inl rfl
    | some sp => exact Or.inr ⟨sp, rfl, rfl⟩
  | add p addr srv => exact Or.inl hstep.2.2
  | get vs srv => exact Or.inl hstep.2.2

/-- No pool is removed. -/
theorem mem_pools_of_step (hstep : (serverSystem L).step s l t) (hq : q ∈ s.pools) :
    q ∈ t.pools := by
  rcases pools_of_step hstep with hpools | ⟨sp, -, hpools⟩
  · exact hpools ▸ hq
  · exact hpools ▸ List.mem_cons_of_mem sp hq

/-- What a call adds to a pool is its next entry. -/
theorem Models.of_adds (h : Models L s pool servers) (hstep : (serverSystem L).step s l t)
    (hadd : l.adds q = some srv) :
    q ∈ s.pools ∧ srv = entry q (pool q).num
      ∧ (poolsAfter s.mem pool l q).num = (pool q).num + 1 := by
  cases l with
  | create malloc => cases hadd
  | get vs srv => cases hadd
  | add p addr srv' =>
    obtain ⟨hp, hcall, -⟩ := hstep
    obtain ⟨rfl, hsrv⟩ := Option.ite_none_right_eq_some.mp hadd
    obtain rfl := Option.some.inj hsrv
    refine ⟨hp, (congrArg Prod.fst hcall).trans
      (congrArg Prod.fst (h.serverPoolAddServer_eq hp addr)), ?_⟩
    show (Function.update pool p _ p).num = _
    rw [Function.update_self]
    rfl

/-- What a call deals out of a pool is what the model deals out. -/
theorem Models.of_selects (h : Models L s pool servers) (hstep : (serverSystem L).step s l t)
    (hsel : l.selects q = some srv) :
    srv = serverPtr (serverPoolGetServer pool q).1
      ∧ poolsAfter s.mem pool l = (serverPoolGetServer pool q).2 := by
  cases l with
  | create malloc => cases hsel
  | add p addr srv => cases hsel
  | get vs srv' =>
    obtain ⟨hp, hcall, -⟩ := hstep
    obtain ⟨rfl, hsrv⟩ := Option.ite_none_right_eq_some.mp hsel
    obtain rfl := Option.some.inj hsrv
    exact ⟨(congrArg Prod.fst hcall).trans (h.get hp).1, rfl⟩

/-- A pool that a call neither adds to nor deals out of is not changed. -/
theorem Models.of_neither (h : Models L s pool servers) (hstep : (serverSystem L).step s l t)
    (hq : q ∈ s.pools) (hadd : l.adds q = none) (hsel : l.selects q = none) :
    poolsAfter s.mem pool l q = pool q := by
  cases l with
  | create malloc =>
    cases malloc with
    | none => rfl
    | some sp =>
      have hne : q ≠ sp := fun he => (h.layout.cons hstep.1).notMem (he ▸ hq)
      exact Function.update_of_ne hne _ _
  | add p addr srv =>
    have hne : p ≠ q := fun he => by
      rw [ServerCall.adds, if_pos he] at hadd
      cases hadd
    exact Function.update_of_ne (Ne.symm hne) _ _
  | get vs srv =>
    have hne : vs.pool ≠ q := fun he => by
      rw [ServerCall.selects, if_pos he] at hsel
      cases hsel
    show (serverPoolGetServer pool vs.pool).2 q = pool q
    unfold serverPoolGetServer
    split
    · rfl
    · exact Function.update_of_ne (Ne.symm hne) _ _

/-- A call that does not add to a pool leaves its number of servers. -/
theorem Models.num_of_not_adds (h : Models L s pool servers)
    (hstep : (serverSystem L).step s l t) (hq : q ∈ s.pools) (hadd : l.adds q = none) :
    (poolsAfter s.mem pool l q).num = (pool q).num := by
  cases hsel : l.selects q with
  | none => rw [h.of_neither hstep hq hadd hsel]
  | some srv => rw [(h.of_selects hstep hsel).2, num_serverPoolGetServer]

/-- A call that creates a pool creates it without servers. -/
theorem num_of_create (m : Memory) (sp : ℕ) :
    (poolsAfter m pool (.create (some sp)) sp).num = 0 := by
  show (Function.update pool sp _ sp).num = 0
  rw [Function.update_self]
  rfl

end Calls

/-! ## Histories -/

/-- **The history of a state**: the servers added are the entries of the pools. -/
structure History (L : ServerHeads) (ls : List ServerCall) (s : ServerHeap)
    (pool : ℕ → ServerPool) (servers : List ServerPtr) : Prop where
  /-- The memory holds the pools. -/
  models : Models L s pool servers
  /-- The servers added to a pool are its entries. -/
  added_eq : ∀ p ∈ s.pools, added p ls = (List.range (pool p).num).map (entry p)
  /-- None were added before it was created. -/
  added_none : ∀ p, p ∉ s.pools → added p ls = []

section History

variable {L : ServerHeads} {s t : ServerHeap} {pool : ℕ → ServerPool}
  {servers : List ServerPtr} {p : ℕ} {ls ms : List ServerCall} {l : ServerCall}

/-- The number of servers added. -/
theorem History.length_added (h : History L ls s pool servers) (hp : p ∈ s.pools) :
    (added p ls).length = (pool p).num := by
  rw [h.added_eq p hp, List.length_map, List.length_range]

/-- **With no more than `MAX_SERVER` added to each pool**, the call has room. -/
theorem History.hasRoom (h : History L ls s pool servers) (hstep : (serverSystem L).step s l t)
    (hadds : ∀ q, (added q (ls ++ [l])).length ≤ maxServer) : HasRoom s l := by
  cases l with
  | create malloc => exact trivial
  | get vs srv => exact trivial
  | add p addr srv =>
    obtain ⟨hp, -, -⟩ := hstep
    have hle := hadds p
    have hadd : ServerCall.adds p (.add p addr srv) = some srv := if_pos rfl
    rw [added_append, added_singleton, hadd, List.length_append, h.length_added hp] at hle
    exact (h.models.num_lt_iff hp).mpr hle

/-- **A call with room keeps the history.** -/
theorem History.step (h : History L ls s pool servers) (hroom : HasRoom s l)
    (hstep : (serverSystem L).step s l t) :
    History L (ls ++ [l]) t (poolsAfter s.mem pool l) (serversAfter pool servers l) := by
  refine ⟨h.models.step hroom hstep, fun q hq => ?_, fun q hq => ?_⟩
  · rw [added_append, added_singleton]
    by_cases hold : q ∈ s.pools
    · cases hadd : l.adds q with
      | none =>
        rw [h.models.num_of_not_adds hstep hold hadd, ← h.added_eq q hold]
        exact List.append_nil _
      | some srv =>
        obtain ⟨-, hsrv, hnum⟩ := h.models.of_adds hstep hadd
        rw [hnum, List.range_succ, List.map_append, ← h.added_eq q hold, hsrv]
        rfl
    · -- the pool is new
      have hadd : l.adds q = none := by
        by_contra hsome
        obtain ⟨srv, hsrv⟩ := Option.ne_none_iff_exists'.mp hsome
        exact hold (h.models.of_adds hstep hsrv).1
      rcases pools_of_step hstep with hpools | ⟨sp, rfl, hpools⟩
      · exact absurd (hpools ▸ hq) hold
      · rw [hpools] at hq
        obtain rfl := (List.mem_cons.mp hq).resolve_right hold
        rw [hadd, h.added_none _ hold, num_of_create]
        rfl
  · have hold : q ∉ s.pools := fun hmem => hq (mem_pools_of_step hstep hmem)
    rw [added_append, added_singleton, h.added_none q hold]
    cases hadd : l.adds q with
    | none => rfl
    | some srv => exact absurd (h.models.of_adds hstep hadd).1 hold

/-- **The history of a run.** -/
theorem History.of_run (hinit : (serverSystem L).init s) (hrun : (serverSystem L).Run s ls t)
    (hadds : ∀ q, (added q ls).length ≤ maxServer) :
    ∃ pool servers, History L ls t pool servers := by
  induction hrun with
  | nil =>
    refine ⟨fun _ => newPool s.mem 0, [], Models.of_init hinit _, fun p hp => ?_,
      fun _ _ => rfl⟩
    rw [hinit.1] at hp
    exact absurd hp List.not_mem_nil
  | snoc _ hstep ih =>
    obtain ⟨pool, servers, h⟩ := ih (fun q => by
      have hle := hadds q
      rw [added_append, List.length_append] at hle
      omega)
    exact ⟨_, _, h.step (h.hasRoom hstep hadds) hstep⟩

end History

/-! ## Windows -/

/-- **What calls that add no server to a pool do to it**: its cursor goes round, and what is
dealt out is the window that it goes over. -/
structure Turned (p : ℕ) (ms : List ServerCall) (before after : ServerPool) : Prop where
  /-- The number of servers is the same. -/
  num : after.num = before.num
  /-- The cursor went over as many servers as were dealt out. -/
  next : before.next < before.num →
    after.next = (before.next + (selected p ms).length) % before.num
  /-- Those servers were dealt out. -/
  dealt : before.next < before.num →
    selected p ms = (cyclic before.num before.next (selected p ms).length).map (entry p)
  /-- A pool without servers deals out none. -/
  empty : before.num = 0 → ∀ srv ∈ selected p ms, srv = 0

section Windows

variable {L : ServerHeads} {s t : ServerHeap} {pool : ℕ → ServerPool}
  {servers : List ServerPtr} {p : ℕ} {ls ms : List ServerCall} {l : ServerCall}
  {before : ServerPool}

theorem Turned.nil (p : ℕ) (before : ServerPool) : Turned p [] before before :=
  ⟨rfl, fun hlt => (Nat.mod_eq_of_lt hlt).symm, fun _ => rfl,
    fun _ _ hsrv => absurd hsrv List.not_mem_nil⟩

/-- A call that deals out a server of the pool moves the cursor on. -/
theorem Turned.snoc {srv : ℕ} (h : Turned p ms before (pool p)) (hsel : l.selects p = some srv)
    (hsrv : srv = serverPtr (serverPoolGetServer pool p).1) :
    Turned p (ms ++ [l]) before ((serverPoolGetServer pool p).2 p) := by
  have happend : selected p (ms ++ [l]) = selected p ms ++ [srv] := by
    rw [selected_append, selected_singleton, hsel]
    rfl
  by_cases hnum : before.num = 0
  · have hget : serverPoolGetServer pool p = (none, pool) := if_pos (h.num.trans hnum)
    rw [hget] at hsrv ⊢
    refine ⟨h.num, fun hlt => absurd hlt (by omega), fun hlt => absurd hlt (by omega),
      fun hnum x hx => ?_⟩
    rw [happend] at hx
    rcases List.mem_append.mp hx with hx | hx
    · exact h.empty hnum x hx
    · rw [List.mem_singleton.mp hx]
      exact hsrv
  · have hget : serverPoolGetServer pool p
        = (some (p, (pool p).next), Function.update pool p (nextMoved (pool p))) :=
      if_neg (fun h0 => hnum (h.num.symm.trans h0))
    rw [hget] at hsrv ⊢
    dsimp only
    rw [Function.update_self]
    refine ⟨h.num, fun hlt => ?_, fun hlt => ?_, fun h0 => absurd h0 hnum⟩
    · show ((pool p).next + 1) % (pool p).num = _
      rw [happend, List.length_append, h.next hlt, h.num, Nat.mod_add_mod]
      rfl
    · rw [happend, List.length_append, List.length_singleton, cyclic_succ, List.map_append,
        ← h.dealt hlt, hsrv, serverPtr, h.next hlt]
      rfl

/-- **A stretch of a run** that adds no server to a pool. -/
theorem History.window (h : History L ls s pool servers) (hp : p ∈ s.pools)
    (hrun : (serverSystem L).Run s ms t) (hadds : ∀ q, (added q (ls ++ ms)).length ≤ maxServer)
    (hno : added p ms = []) :
    ∃ pool' servers', History L (ls ++ ms) t pool' servers' ∧ p ∈ t.pools
      ∧ Turned p ms (pool p) (pool' p) := by
  induction hrun with
  | nil =>
    rw [List.append_nil]
    exact ⟨pool, servers, h, hp, Turned.nil p _⟩
  | @snoc ms u v l _ hstep ih =>
    rw [added_append, List.append_eq_nil_iff] at hno
    obtain ⟨pool', servers', hu, hpu, hturn⟩ := ih (fun q => by
      have hle := hadds q
      rw [← List.append_assoc, added_append, List.length_append] at hle
      omega) hno.1
    rw [← List.append_assoc] at hadds ⊢
    have hadd : l.adds p = none := by
      have hnil := hno.2
      rw [added_singleton] at hnil
      exact Option.toList_eq_nil_iff.mp hnil
    refine ⟨_, _, hu.step (hu.hasRoom hstep hadds) hstep, mem_pools_of_step hstep hpu, ?_⟩
    cases hsel : l.selects p with
    | none =>
      rw [hu.models.of_neither hstep hpu hadd hsel]
      have hkeep : selected p (ms ++ [l]) = selected p ms := by
        rw [selected_append, selected_singleton, hsel]
        exact List.append_nil _
      obtain ⟨hnum, hnext, hdealt, hempty⟩ := hturn
      rw [← hkeep] at hnext hdealt hempty
      exact ⟨hnum, hnext, hdealt, hempty⟩
    | some srv =>
      obtain ⟨hsrv, hafter⟩ := hu.models.of_selects hstep hsel
      rw [hafter]
      exact hturn.snoc hsel hsrv

/-- Entries of a pool have addresses of their own. -/
theorem entry_injective (p : ℕ) : Function.Injective (entry p) := by
  intro i j hij
  unfold entry sizeofServer at hij
  omega

/-- **Servers in turn**, in a window `ms` of the calls on a pool after `ls`. -/
structure InTurn (p : ℕ) (ls ms : List ServerCall) (t : ServerHeap) : Prop where
  /-- The servers added are different ones. -/
  nodup : (added p ls).Nodup
  /-- They are as many as the pool has. -/
  num : IntIs (poolNum t.mem p) (added p ls).length
  /-- The cursor is on one of them, if there is any. -/
  next : added p ls ≠ [] → 0 ≤ poolNext t.mem p ∧ poolNext t.mem p < poolNum t.mem p
  /-- Only servers that were added are dealt out. -/
  mem_added : added p ls ≠ [] → ∀ srv ∈ selected p ms, srv ∈ added p ls
  /-- As long as there are none, the null pointer is. -/
  eq_null : added p ls = [] → ∀ srv ∈ selected p ms, srv = 0
  /-- Each is dealt out as often as any other, up to once. -/
  fair : ∀ srv ∈ added p ls,
    (selected p ms).count srv = (selected p ms).length / (added p ls).length
      ∨ (selected p ms).count srv
        = ((selected p ms).length + (added p ls).length - 1) / (added p ls).length

/-- **Every window is fair.** -/
theorem serverSystem_inTurn (L : ServerHeads) {s₀ s t : ServerHeap} {ls ms : List ServerCall}
    (hinit : (serverSystem L).init s₀) (hrun : (serverSystem L).Run s₀ ls s)
    (hwindow : (serverSystem L).Run s ms t)
    (hadds : ∀ q, (added q (ls ++ ms)).length ≤ maxServer) {p : ℕ} (hp : p ∈ s.pools)
    (hno : added p ms = []) : InTurn p ls ms t := by
  obtain ⟨pool, servers, hs⟩ := History.of_run hinit hrun (fun q => by
    have hle := hadds q
    rw [added_append, List.length_append] at hle
    omega)
  obtain ⟨pool', servers', ht, hpt, hturn⟩ := hs.window hp hwindow hadds hno
  have hadded := hs.added_eq p hp
  have hnum := hs.length_added hp
  have hold := ht.models.holds p hpt
  have hzero : IntIs 0 0 := rfl
  have hpos : added p ls ≠ [] → (pool p).num ≠ 0 := fun hne h0 =>
    hne (List.length_eq_zero_iff.mp (hnum.trans h0))
  have hmem : ∀ srv ∈ added p ls, ∃ i < (pool p).num, entry p i = srv := fun srv hsrv => by
    rw [hadded] at hsrv
    obtain ⟨i, hi, he⟩ := List.mem_map.mp hsrv
    exact ⟨i, List.mem_range.mp hi, he⟩
  refine ⟨?_, ?_, fun hne => ?_, fun hne srv hsrv => ?_, fun h0 => ?_, fun srv hsrv => ?_⟩
  · rw [hadded]
    exact List.nodup_range.map (entry_injective p)
  · rw [hnum, ← hturn.num]
    exact hold.num
  · have hlt := ht.models.next_lt hpt (fun h0 => hpos hne (hturn.num.symm.trans h0))
    exact ⟨(hzero.le_iff hold.next).mpr (Nat.zero_le _), (hold.next.lt_iff hold.num).mpr hlt⟩
  · have hlt := hs.models.next_lt hp (hpos hne)
    rw [hturn.dealt hlt] at hsrv
    obtain ⟨i, hi, rfl⟩ := List.mem_map.mp hsrv
    rw [hadded]
    exact List.mem_map_of_mem (List.mem_range.mpr (cyclic_lt (Nat.zero_lt_of_lt hlt) hi))
  · rw [List.length_eq_zero_iff.mpr h0] at hnum
    exact hturn.empty hnum.symm
  · -- what is dealt out is a window of the ring of servers
    obtain ⟨i, hi, rfl⟩ := hmem srv hsrv
    have hlt := hs.models.next_lt hp (Nat.ne_of_gt (Nat.zero_lt_of_lt hi))
    have hcount : (selected p ms).count (entry p i)
        = (cyclic (pool p).num (pool p).next (selected p ms).length).count i := by
      conv_lhs => rw [hturn.dealt hlt]
      exact List.count_map_of_injective _ _ (entry_injective p) _
    rw [hcount, hnum]
    exact count_cyclic_fair hlt hi _

/-- Two servers, dealt out three times to two virtual servers. -/
theorem onePool_inTurn : ∃ ms t, (selected 4096 ms).length = 3
    ∧ InTurn 4096 (.create (some 4096) :: fillCalls 4096 (fun _ => 0) 2) ms t := by
  obtain ⟨s, hrun, hpools, -⟩ := @onePool_fill 2 (by decide)
  have hget : ∀ (u : ServerHeap) (vs : Vserver), vs.pool ∈ u.pools →
      ∃ srv v, (serverSystem twoHeads).step u (.get vs srv) v ∧ v.pools = u.pools := by
    intro u vs hvs
    rcases hcall : InMemory.vserverGetServer u.mem vs with ⟨srv, m⟩
    exact ⟨srv, ⟨m, u.pools⟩, ⟨hvs, hcall.symm, rfl⟩, rfl⟩
  have hmem : 4096 ∈ s.pools := hpools ▸ List.mem_singleton_self 4096
  obtain ⟨srv₁, t₁, hstep₁, hpools₁⟩ := hget s ⟨4096, 1, 80, 6, 0⟩ hmem
  obtain ⟨srv₂, t₂, hstep₂, hpools₂⟩ := hget t₁ ⟨4096, 1, 443, 6, 0⟩ (hpools₁ ▸ hmem)
  obtain ⟨srv₃, t₃, hstep₃, -⟩ := hget t₂ ⟨4096, 1, 80, 6, 0⟩ (hpools₂ ▸ hpools₁ ▸ hmem)
  have hwindow := ((System.Run.single hstep₁).snoc hstep₂).snoc hstep₃
  exact ⟨_, t₃, rfl, serverSystem_inTurn twoHeads noPools_init hrun.of_restrict hwindow
    (fun q => (List.length_filterMap_le _ _).trans (show 6 ≤ 64 from by decide)) hmem rfl⟩

end Windows

end ServerHeap
