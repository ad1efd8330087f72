import Ustack.Blocks
import Mathlib.Data.List.Basic
import Mathlib.Data.List.Perm.Basic
import Mathlib.Data.List.Perm.Subperm

/-!
# The memory pool

`src/mem_pool.c`: nodes of one rounded size, carved out of chunks taken from
`malloc` a megabyte at a time and kept on a free list. A node is the address of
its first byte. Beside the fields of the C structure the pool records what only
the history knows: the chunks it got and the nodes it handed out and did not get
back. Nothing the code does reads either.

`MemPool.Ok` is the accounting invariant: the nodes on the free list and the
outstanding ones are together exactly the nodes of the chunks, each once. From
it follow both that nothing is handed out twice and, the chunks being disjoint,
that no two nodes overlap.
-/

/-- `CHUNKSIZE`. -/
def chunkSize : ℕ := 1024 * 1024

/-- `struct mem_pool`, with its history. -/
structure MemPool where
  /-- The rounded node size. -/
  size : ℕ
  /-- The size of a chunk. -/
  chunksize : ℕ
  /-- The number of free nodes. -/
  num : ℕ
  /-- The free nodes, the next to hand out first. -/
  free_list : List ℕ
  /-- The nodes handed out and not returned. -/
  outstanding : List ℕ
  /-- The chunks obtained. -/
  chunks : List ℕ

/-- `mem_pool_create`: the size rounded up to a multiple of eight. -/
def memPoolCreate (size : ℕ) : MemPool where
  size := (size + 7) / 8 * 8
  chunksize := chunkSize
  num := 0
  free_list := []
  outstanding := []
  chunks := []

/-- The carving loop of `_mem_pool_alloc_chunk`: the first `num` nodes of the
chunk at `start`, each put in front of the ones before it. -/
def carve (start size : ℕ) : ℕ → List ℕ → List ℕ
  | 0, free_list => free_list
  | i + 1, free_list => (start + i * size) :: carve start size i free_list

/-- `_mem_pool_alloc_chunk`, given what `malloc` returned. -/
def memPoolAllocChunk (malloc : Option ℕ) (pool : MemPool) : ℕ × MemPool :=
  match malloc with
  | none => (0, pool)
  | some start =>
    let num := pool.chunksize / pool.size
    (num, { pool with
      free_list := carve start pool.size num pool.free_list
      num := pool.num + num
      chunks := start :: pool.chunks })

/-- `slist_del_first` and the accounting after it. -/
def memPoolTake (p : MemPool) : Option ℕ × MemPool :=
  match p.free_list with
  | [] => (none, p)
  | node :: rest =>
    (some node, { p with
      free_list := rest
      num := p.num - 1
      outstanding := node :: p.outstanding })

/-- `mem_pool_alloc`, given what `malloc` would return. -/
def memPoolAlloc (malloc : Option ℕ) (p : MemPool) : Option ℕ × MemPool :=
  if p.free_list = [] then
    let (ret, p) := memPoolAllocChunk malloc p
    if ret = 0 then (none, p) else memPoolTake p
  else memPoolTake p

/-- `mem_pool_free`. -/
def memPoolFree (p : MemPool) (node : ℕ) : MemPool :=
  { p with
    free_list := node :: p.free_list
    num := p.num + 1
    outstanding := p.outstanding.erase node }

/-! ## The accounting invariant -/

theorem carve_append (start size n : ℕ) (l : List ℕ) :
    carve start size n l = carve start size n [] ++ l := by
  induction n with
  | zero => rfl
  | succ n ih => rw [carve, ih, carve, List.cons_append]

theorem mem_carve {start size n a : ℕ} :
    a ∈ carve start size n [] ↔ ∃ i < n, a = start + i * size := by
  induction n with
  | zero => simp [carve]
  | succ n ih =>
    rw [carve, List.mem_cons, ih]
    constructor
    · rintro (rfl | ⟨i, hi, rfl⟩)
      · exact ⟨n, Nat.lt_succ_self n, rfl⟩
      · exact ⟨i, Nat.lt_succ_of_lt hi, rfl⟩
    · rintro ⟨i, hi, rfl⟩
      rcases Nat.lt_succ_iff_lt_or_eq.mp hi with h | rfl
      · exact Or.inr ⟨i, h, rfl⟩
      · exact Or.inl rfl

theorem nodup_carve {start size : ℕ} (hs : 0 < size) (n : ℕ) :
    (carve start size n []).Nodup := by
  induction n with
  | zero => exact List.nodup_nil
  | succ n ih =>
    rw [carve, List.nodup_cons]
    refine ⟨fun hmem => ?_, ih⟩
    obtain ⟨i, hi, he⟩ := mem_carve.mp hmem
    exact absurd (Nat.eq_of_mul_eq_mul_right hs (Nat.add_left_cancel he)) (by omega)

theorem pairwise_carve {start size n : ℕ} :
    (carve start size n []).Pairwise (chunksApart size) := by
  induction n with
  | zero => exact List.Pairwise.nil
  | succ n ih =>
    rw [carve, List.pairwise_cons]
    refine ⟨fun a ha => ?_, ih⟩
    obtain ⟨i, hi, rfl⟩ := mem_carve.mp ha
    have hmul : (i + 1) * size ≤ n * size := Nat.mul_le_mul_right _ hi
    rw [Nat.add_mul, Nat.one_mul] at hmul
    exact Or.inr (by omega)

namespace MemPool

/-- The nodes of a chunk. -/
def chunkNodes (p : MemPool) (start : ℕ) : List ℕ :=
  carve start p.size (p.chunksize / p.size) []

/-- **The accounting invariant**: free and outstanding nodes are the nodes of
the chunks, the chunks do not overlap, and the counter counts the free list. -/
structure Ok (p : MemPool) : Prop where
  /-- A node has at least one byte. -/
  size_pos : 0 < p.size
  /-- The free and the outstanding nodes are the nodes carved. -/
  nodes : (p.free_list ++ p.outstanding).Perm (p.chunks.flatMap p.chunkNodes)
  /-- The chunks do not overlap. -/
  apart : p.chunks.Pairwise (chunksApart p.chunksize)
  /-- The counter counts the free list. -/
  num_eq : p.num = p.free_list.length

/-- What `malloc` may return to this pool: nothing, or a chunk that does not
overlap any it has. -/
def MallocOk (p : MemPool) (malloc : Option ℕ) : Prop :=
  ∀ start, malloc = some start → ∀ c ∈ p.chunks, chunksApart p.chunksize start c

variable {p : MemPool}

/-- A node of a chunk lies in the chunk, all its bytes included. -/
theorem chunkNodes_bounds {start a : ℕ} (h : a ∈ p.chunkNodes start) :
    start ≤ a ∧ a + p.size ≤ start + p.chunksize := by
  obtain ⟨i, hi, rfl⟩ := mem_carve.mp h
  refine ⟨Nat.le_add_right _ _, ?_⟩
  have hmul : (i + 1) * p.size ≤ p.chunksize / p.size * p.size :=
    Nat.mul_le_mul_right _ hi
  have hdiv := Nat.div_mul_le_self p.chunksize p.size
  rw [Nat.add_mul, Nat.one_mul] at hmul
  omega

theorem Ok.nodup_chunkNodes (h : p.Ok) :
    (p.chunks.flatMap p.chunkNodes).Nodup := by
  rw [List.nodup_flatMap]
  refine ⟨fun c _ => nodup_carve h.size_pos _, h.apart.imp (fun {a b} hab => ?_)⟩
  intro x hxa hxb
  have ha := chunkNodes_bounds hxa
  have hb := chunkNodes_bounds hxb
  have hs := h.size_pos
  rcases hab with hab | hab <;> omega

/-- **No node is in two places.** -/
theorem Ok.nodup (h : p.Ok) : (p.free_list ++ p.outstanding).Nodup :=
  h.nodes.nodup_iff.mpr h.nodup_chunkNodes

/-- **No two nodes overlap**, free or outstanding. -/
theorem Ok.pairwise_nodes (h : p.Ok) :
    (p.free_list ++ p.outstanding).Pairwise (chunksApart p.size) := by
  rw [h.nodes.pairwise_iff (fun {a b} hab => hab.symm), List.pairwise_flatMap]
  refine ⟨fun start _ => pairwise_carve, h.apart.imp (fun {c d} hcd => ?_)⟩
  intro a ha b hb
  have ha := chunkNodes_bounds ha
  have hb := chunkNodes_bounds hb
  rcases hcd with hcd | hcd
  · exact Or.inl (by omega)
  · exact Or.inr (by omega)

/-- A node lies in a chunk. -/
theorem Ok.exists_chunk (h : p.Ok) {a : ℕ} (ha : a ∈ p.free_list ++ p.outstanding) :
    ∃ c ∈ p.chunks, c ≤ a ∧ a + p.size ≤ c + p.chunksize := by
  obtain ⟨c, hc, hac⟩ := List.mem_flatMap.mp (h.nodes.mem_iff.mp ha)
  exact ⟨c, hc, chunkNodes_bounds hac⟩

theorem Ok.nodup_outstanding (h : p.Ok) : p.outstanding.Nodup := h.nodup.of_append_right

theorem ok_create {size : ℕ} (hs : 0 < size) : (memPoolCreate size).Ok where
  size_pos := by show 0 < (size + 7) / 8 * 8; omega
  nodes := List.Perm.refl _
  apart := List.Pairwise.nil
  num_eq := rfl

theorem Ok.allocChunk (h : p.Ok) {malloc : Option ℕ} (hm : p.MallocOk malloc) :
    (memPoolAllocChunk malloc p).2.Ok := by
  cases malloc with
  | none => exact h
  | some start =>
    refine ⟨h.size_pos, ?_, List.pairwise_cons.mpr ⟨hm start rfl, h.apart⟩, ?_⟩
    · show (carve start p.size (p.chunksize / p.size) p.free_list ++ p.outstanding).Perm
        (p.chunkNodes start ++ p.chunks.flatMap p.chunkNodes)
      rw [carve_append, List.append_assoc]
      exact h.nodes.append_left _
    · show p.num + p.chunksize / p.size
        = (carve start p.size (p.chunksize / p.size) p.free_list).length
      have hlen : ∀ n, (carve start p.size n p.free_list).length
          = n + p.free_list.length := by
        intro n
        induction n with
        | zero => exact (Nat.zero_add _).symm
        | succ n ih => rw [carve, List.length_cons, ih]; omega
      rw [hlen, h.num_eq, Nat.add_comm]

theorem Ok.take (h : p.Ok) : (memPoolTake p).2.Ok := by
  unfold memPoolTake
  split
  · exact h
  · rename_i node rest hl
    refine ⟨h.size_pos, ?_, h.apart, ?_⟩
    · exact List.perm_middle.trans (by rw [← List.cons_append, ← hl]; exact h.nodes)
    · show p.num - 1 = rest.length
      rw [h.num_eq, hl, List.length_cons, Nat.add_sub_cancel]

/-- **Allocation keeps the accounts.** -/
theorem Ok.alloc (h : p.Ok) {malloc : Option ℕ} (hm : p.MallocOk malloc) :
    (memPoolAlloc malloc p).2.Ok := by
  unfold memPoolAlloc
  split
  · have hc := h.allocChunk hm
    dsimp only
    split
    · exact hc
    · exact hc.take
  · exact h.take

theorem outstanding_take :
    (memPoolTake p).2.outstanding
      = (match (memPoolTake p).1 with
        | none => p.outstanding
        | some node => node :: p.outstanding) := by
  unfold memPoolTake
  split <;> rfl

/-- **Allocation adds the node it answers to the outstanding ones**, and changes
them no other way. -/
theorem outstanding_alloc (malloc : Option ℕ) :
    (memPoolAlloc malloc p).2.outstanding
      = (match (memPoolAlloc malloc p).1 with
        | none => p.outstanding
        | some node => node :: p.outstanding) := by
  have hchunk : (memPoolAllocChunk malloc p).2.outstanding = p.outstanding := by
    cases malloc <;> rfl
  unfold memPoolAlloc
  split
  · dsimp only
    split
    · exact hchunk
    · rw [outstanding_take, hchunk]
  · exact outstanding_take

/-- The node answered was not outstanding. -/
theorem Ok.alloc_notMem (h : p.Ok) {malloc : Option ℕ} (hm : p.MallocOk malloc)
    {node : ℕ} (hn : (memPoolAlloc malloc p).1 = some node) :
    node ∉ p.outstanding := by
  have hnd := (h.alloc hm).nodup_outstanding
  rw [outstanding_alloc, hn] at hnd
  exact (List.nodup_cons.mp hnd).1

/-- **Nothing is answered only if nothing is free and `malloc` fails**, where a chunk
has room for a node. -/
theorem alloc_eq_none {malloc : Option ℕ} (hpos : 0 < p.size) (hle : p.size ≤ p.chunksize)
    (h : (memPoolAlloc malloc p).1 = none) : p.free_list = [] ∧ malloc = none := by
  cases hfree : p.free_list with
  | cons node rest =>
    rw [memPoolAlloc, if_neg (by rw [hfree]; exact List.cons_ne_nil _ _), memPoolTake,
      hfree] at h
    exact absurd h (Option.some_ne_none node)
  | nil =>
    refine ⟨rfl, ?_⟩
    cases malloc with
    | none => rfl
    | some start =>
      obtain ⟨n, hn⟩ := Nat.exists_eq_succ_of_ne_zero (Nat.div_pos hle hpos).ne'
      rw [memPoolAlloc, if_pos hfree, memPoolAllocChunk] at h
      simp only [hn, Nat.succ_ne_zero, if_false] at h
      exact absurd h (Option.some_ne_none _)

/-- **Freeing an outstanding node keeps the accounts.** -/
theorem Ok.free (h : p.Ok) {node : ℕ} (hn : node ∈ p.outstanding) :
    (memPoolFree p node).Ok where
  size_pos := h.size_pos
  nodes := by
    show (node :: p.free_list ++ p.outstanding.erase node).Perm
      (p.chunks.flatMap p.chunkNodes)
    refine List.Perm.trans ?_ h.nodes
    exact List.perm_middle.symm.trans
      ((List.perm_cons_erase hn).symm.append_left p.free_list)
  apart := h.apart
  num_eq := by
    show p.num + 1 = (node :: p.free_list).length
    rw [List.length_cons, h.num_eq]

end MemPool
