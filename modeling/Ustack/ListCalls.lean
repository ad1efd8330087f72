import Ustack.ListHead
import Ustack.PointerRings
import Ustack.Runs

/-!
# The lists of the program in memory

Every list of the program – the buckets of its hash tables, the slots of the timer wheel,
the pools and queues of packets – is a ring of `struct list_head` in memory, and everything
done to them goes through `include/common/list.h`. The rest of the model has lists in their
place. Here the calls are read on bytes: each is two or three times the same pair of stores,
which links one node to another (`eqOn_listDelBetween`), so that a table of rings refines a
table of lists (`listSystem_refines`).

The loop `list_for_each_entry_safe` is among the calls. Its body may leave the node it is at,
take it out, or put it into another list, which is what the bodies in the program do.
-/

/-- The pointers that the links are. -/
def pointers (m : Memory) : Pointers ℕ := ⟨nodeNext m, nodePrev m⟩

@[simp] theorem next_pointers (m : Memory) (x : ℕ) : (pointers m).next x = nodeNext m x := rfl

@[simp] theorem prev_pointers (m : Memory) (x : ℕ) : (pointers m).prev x = nodePrev m x := rfl

/-! ## The functions -/

/-- `__list_del`. -/
def listDelBetween (m : Memory) (prev next : ℕ) : Memory := setNext (setPrev m next prev) prev next

/-- `list_del`. -/
def listDel (m : Memory) (entry : ℕ) : Memory :=
  listDelBetween m (nodePrev m entry) (nodeNext m entry)

/-- `list_add_tail`. -/
def listAddTail (m : Memory) (new head : ℕ) : Memory :=
  listAddBetween m new (nodePrev m head) head

/-- `list_move_tail`. -/
def listMoveTail (m : Memory) (list head : ℕ) : Memory :=
  let m := listDelBetween m (nodePrev m list) (nodeNext m list)
  listAddTail m list head

/-- Moving a node is taking it out and adding it. -/
theorem listMoveTail_eq (m : Memory) (list head : ℕ) :
    listMoveTail m list head = listAddTail (listDel m list) list head := by
  rw [listMoveTail, listDel]

/-- `list_empty`. -/
def listEmpty (m : Memory) (head : ℕ) : Bool := nodeNext m head == head

/-- `__list_splice`. -/
def listSplice (m : Memory) (list prev next : ℕ) : Memory :=
  let first := nodeNext m list
  let last := nodePrev m list
  let m := setNext (setPrev m first prev) prev first
  setPrev (setNext m last next) next last

/-- `list_for_each_entry`: the nodes met, if there are less than so many. -/
def listForEach (m : Memory) (head fuel : ℕ) : Option (List ℕ) :=
  (pointers m).walk head fuel (nodeNext m head)

/-- `list_splice_tail_init`. -/
def listSpliceTailInit (m : Memory) (list head : ℕ) : Memory :=
  if listEmpty m list then m
  else listInit (listSplice m list (nodePrev m head) head) list

/-- `hashtable_init`: the heads are an array. -/
def hashtableInit (m : Memory) (table size : ℕ) : Memory :=
  (List.range size).foldl (fun m i => listInit m (table + i * nodeSize)) m

/-- The loop of `list_for_each_entry_safe`: at `pos`, with the node after it already
fetched. -/
def listForEachSafe (body : Memory → ℕ → Memory) (head : ℕ) :
    ℕ → Memory → ℕ → ℕ → Option Memory
  | 0, _, _, _ => none
  | fuel + 1, m, pos, n =>
    if pos = head then some m
    else
      let m := body m pos
      listForEachSafe body head fuel m n (nodeNext m n)

/-! ## Pointers in memory -/

/-- **Where nodes are**: no two overlap, and all are in the address space. -/
structure NodeSet where
  /-- Their addresses. -/
  nodes : Set ℕ
  /-- No two overlap. -/
  apart : ∀ a ∈ nodes, ∀ b ∈ nodes, NodesOk a b
  /-- They are in the address space. -/
  bound : ∀ a ∈ nodes, a < 2 ^ 64

namespace Pointers

/-- The pointers of some nodes read the same. -/
def EqOn (N : Set ℕ) (p q : Pointers ℕ) : Prop :=
  ∀ x ∈ N, p.next x = q.next x ∧ p.prev x = q.prev x

section EqOn

variable {N : Set ℕ} {p q r : Pointers ℕ} {head : ℕ → ℕ} {n : ℕ} {t : ℕ → List ℕ}

theorem EqOn.refl (N : Set ℕ) (p : Pointers ℕ) : EqOn N p p := fun _ _ => ⟨rfl, rfl⟩

theorem EqOn.trans (h : EqOn N p q) (h' : EqOn N q r) : EqOn N p r := fun x hx =>
  ⟨(h x hx).1.trans (h' x hx).1, (h x hx).2.trans (h' x hx).2⟩

/-- The same link made. -/
theorem EqOn.join (h : EqOn N p q) (a b : ℕ) : EqOn N (p.join a b) (q.join a b) := by
  intro x hx
  rw [next_join, next_join, prev_join, prev_join, (h x hx).1, (h x hx).2]
  exact ⟨rfl, rfl⟩

/-- The rings through such nodes. -/
theorem Rings.of_eqOn (h : p.Rings head n t) (hq : EqOn N q p)
    (hN : ∀ i < n, ∀ x ∈ head i :: t i, x ∈ N) : q.Rings head n t where
  toApart := h.toApart
  ring i hi := by
    have hmem : ∀ x ∈ head i :: (t i ++ [head i]), x ∈ N := fun x hx => by
      rw [← List.cons_append] at hx
      rcases List.mem_append.mp hx with hx | hx
      · exact hN i hi x hx
      · exact hN i hi x (List.mem_cons.mpr (Or.inl (List.mem_singleton.mp hx)))
    exact Path.congr (h.ring i hi) (fun x hx => (hq x (hmem x hx)).1)
      (fun x hx => (hq x (hmem x hx)).2)

end EqOn

end Pointers

section Stores

variable {m m' : Memory} (N : NodeSet) {a b c : ℕ}

/-- A store to one link forward. -/
theorem nodeNext_setNext_eq (m : Memory) (ha : a ∈ N.nodes) (hb : b ∈ N.nodes)
    (hc : c ∈ N.nodes) : nodeNext (setNext m a b) c = if c = a then b else nodeNext m c := by
  by_cases h : c = a
  · rw [if_pos h, h]
    exact nodeNext_setNext m a (N.bound b hb)
  · rw [if_neg h]
    exact nodeNext_setNext_of_apart m b ((N.apart a ha c hc).resolve_left (Ne.symm h))

/-- A store to one link back. -/
theorem nodePrev_setPrev_eq (m : Memory) (ha : a ∈ N.nodes) (hb : b ∈ N.nodes)
    (hc : c ∈ N.nodes) : nodePrev (setPrev m a b) c = if c = a then b else nodePrev m c := by
  by_cases h : c = a
  · rw [if_pos h, h]
    exact nodePrev_setPrev m a (N.bound b hb)
  · rw [if_neg h]
    exact nodePrev_setPrev_of_apart m b ((N.apart a ha c hc).resolve_left (Ne.symm h))

/-- **The two stores of `__list_del` link two nodes.** -/
theorem eqOn_listDelBetween (m : Memory) (ha : a ∈ N.nodes) (hb : b ∈ N.nodes) :
    Pointers.EqOn N.nodes (pointers (listDelBetween m a b)) ((pointers m).join a b) := by
  intro x hx
  rw [Pointers.next_join, Pointers.prev_join]
  constructor
  · show nodeNext (setNext (setPrev m b a) a b) x = _
    rw [nodeNext_setNext_eq N _ ha hb hx, nodeNext_setPrev m a (N.apart b hb x hx)]
    rfl
  · show nodePrev (setNext (setPrev m b a) a b) x = _
    rw [nodePrev_setNext _ b (N.apart a ha x hx), nodePrev_setPrev_eq N m hb ha hx]
    rfl

/-- So do they in the other order. -/
theorem eqOn_setPrev_setNext (m : Memory) (ha : a ∈ N.nodes) (hb : b ∈ N.nodes) :
    Pointers.EqOn N.nodes (pointers (setPrev (setNext m a b) b a)) ((pointers m).join a b) := by
  intro x hx
  rw [Pointers.next_join, Pointers.prev_join]
  constructor
  · show nodeNext (setPrev (setNext m a b) b a) x = _
    rw [nodeNext_setPrev _ a (N.apart b hb x hx), nodeNext_setNext_eq N m ha hb hx]
    rfl
  · show nodePrev (setPrev (setNext m a b) b a) x = _
    rw [nodePrev_setPrev_eq N _ hb ha hx, nodePrev_setNext m b (N.apart a ha x hx)]
    rfl

/-- A node put between two others. -/
theorem eqOn_listAddBetween (m : Memory) (ha : a ∈ N.nodes) (hb : b ∈ N.nodes)
    (hc : c ∈ N.nodes) : Pointers.EqOn N.nodes (pointers (listAddBetween m a b c))
      (((pointers m).join a c).join b a) :=
  (eqOn_listDelBetween N (listDelBetween m a c) hb ha).trans
    ((eqOn_listDelBetween N m ha hc).join b a)

end Stores

/-! ## One list -/

/-- The two ways to say that links lead from a node to another. -/
theorem linked_iff_path {m : Memory} {b : ℕ} {xs : List ℕ} :
    ∀ {a : ℕ}, Linked m a xs b ↔ (pointers m).Path (a :: (xs ++ [b])) := by
  induction xs with
  | nil =>
    intro a
    exact ⟨fun h => List.isChain_cons_cons.mpr ⟨h, .singleton b⟩,
      fun h => (List.isChain_cons_cons.mp h).1⟩
  | cons x xs ih =>
    intro a
    exact ⟨fun h => List.isChain_cons_cons.mpr ⟨h.1, ih.mp h.2⟩,
      fun h => ⟨(List.isChain_cons_cons.mp h).1, ih.mpr (List.isChain_cons_cons.mp h).2⟩⟩

theorem circular_iff_ring {m : Memory} {head : ℕ} {xs : List ℕ} :
    Circular m head xs ↔ (pointers m).Ring head xs := linked_iff_path

section OneList

variable {m : Memory} {head x : ℕ} {xs : List ℕ}

/-- The nodes of a list. -/
def NodeSet.of (xs : List ℕ) (hapart : xs.Pairwise (chunksApart nodeSize))
    (hbound : ∀ x ∈ xs, x < 2 ^ 64) : NodeSet where
  nodes := {x | x ∈ xs}
  apart a ha b hb := by
    by_cases hab : a = b
    · exact Or.inl hab
    · have hsymm : Std.Symm (chunksApart nodeSize) := ⟨fun _ _ h => h.symm⟩
      exact Or.inr (hapart.forall ha hb hab)
  bound := hbound

/-- The bytes that taking a node out stores to. -/
theorem agree_listDel (m : Memory) {off k : ℕ}
    (hprev : off + k ≤ nodePrev m x ∨ nodePrev m x + nodeSize ≤ off)
    (hnext : off + k ≤ nodeNext m x ∨ nodeNext m x + nodeSize ≤ off) :
    Agree (listDel m x) m off k := by
  rw [listDel]
  generalize nodePrev m x = prev at hprev ⊢
  generalize nodeNext m x = next at hnext ⊢
  unfold nodeSize at hprev hnext
  exact (agree_setNext _ _ (by omega)).trans (agree_setPrev _ _ (by omega))

/-- **Taking a node out of a list.** -/
theorem Circular.del (h : Circular m head xs)
    (hapart : (head :: xs).Pairwise (chunksApart nodeSize)) (hbound : ∀ x ∈ head :: xs, x < 2 ^ 64)
    (hx : x ∈ xs) : Circular (listDel m x) head (xs.erase x) := by
  have hring := circular_iff_ring.mp h
  have hnodup : (head :: xs).Nodup := hapart.imp (fun {a b} hab he => by
    unfold chunksApart nodeSize at hab
    omega)
  obtain ⟨l₁, l₂, rfl⟩ := List.append_of_mem hx
  have hx₁ : x ∉ l₁ := fun hmem =>
    (List.nodup_append.mp (List.nodup_cons.mp hnodup).2).2.2 x hmem x List.mem_cons_self rfl
  rw [List.erase_append_right _ hx₁, List.erase_cons_head]
  obtain ⟨hprev, hnext⟩ := hring.neighbours hx
  rw [prev_pointers] at hprev
  rw [next_pointers] at hnext
  have hstores := eqOn_listDelBetween (NodeSet.of _ hapart hbound) m hprev hnext
  rw [← listDel] at hstores
  have hmem : ∀ y ∈ head :: ((l₁ ++ l₂) ++ [head]), y ∈ head :: (l₁ ++ x :: l₂) := by
    intro y hy
    rw [← List.cons_append] at hy
    rcases List.mem_append.mp hy with hy | hy
    · have hsub : (head :: (l₁ ++ l₂)).Sublist (head :: (l₁ ++ x :: l₂)) :=
        List.Sublist.cons_cons head ((List.Sublist.refl l₁).append (List.sublist_cons_self x l₂))
      exact hsub.subset hy
    · exact List.mem_cons.mpr (Or.inl (List.mem_singleton.mp hy))
  have hremoved := hring.remove hnodup
  rw [prev_pointers, next_pointers] at hremoved
  exact circular_iff_ring.mpr (Pointers.Path.congr hremoved
    (fun y hy => (hstores y (hmem y hy)).1) (fun y hy => (hstores y (hmem y hy)).2))

end OneList

/-! ## The calls -/

/-- What a call does with a node that is in a list. -/
inductive Fate
  /-- Nothing. -/
  | stays
  /-- `list_del`. -/
  | taken
  /-- `list_del`, and `list_add` to a list. -/
  | added (i : ℕ)
  /-- `list_move_tail` to a list, which is `list_del` and `list_add_tail`. -/
  | moved (i : ℕ)

namespace Fate

/-- In memory. -/
def run (head : ℕ → ℕ) (m : Memory) (x : ℕ) : Fate → Memory
  | stays => m
  | taken => listDel m x
  | added i => listAdd (listDel m x) x (head i)
  | moved i => listMoveTail m x (head i)

/-- On the lists. -/
def apply (t : ℕ → List ℕ) (x : ℕ) : Fate → ℕ → List ℕ
  | stays => t
  | taken => bucketDel t x
  | added i => bucketAdd (bucketDel t x) i x
  | moved i => Function.update (bucketDel t x) i (bucketDel t x i ++ [x])

/-- The list is one of the table. -/
def Ok (n : ℕ) : Fate → Prop
  | stays => True
  | taken => True
  | added i => i < n
  | moved i => i < n

/-- The node is not put into a certain list. -/
def Avoids (i : ℕ) : Fate → Prop
  | stays => True
  | taken => True
  | added j => j ≠ i
  | moved j => j ≠ i

end Fate

/-- A call on a table of lists. -/
inductive ListCall
  /-- `INIT_LIST_HEAD` of a node that is in no list. -/
  | init (x : ℕ)
  /-- `list_add` of a node to a list. -/
  | add (x i : ℕ)
  /-- `list_add_tail` of a node to a list. -/
  | addTail (x i : ℕ)
  /-- `list_del` or `list_move_tail` of a node. -/
  | fate (x : ℕ) (f : Fate)
  /-- `list_splice_tail_init` of a list behind another. -/
  | spliceTailInit (i j : ℕ)
  /-- `list_for_each_entry_safe` over a list, with what its body does to each node. -/
  | forEachSafe (i : ℕ) (body : ℕ → Fate)
  /-- Stores to anything that is no node. -/
  | store (m : Memory)

/-- Memory, and the lists that are in it. -/
structure ListWorld where
  /-- The memory. -/
  mem : Memory
  /-- The lists. -/
  list : ℕ → List ℕ

namespace ListCall

/-- What a call does to the lists. -/
def apply (t : ℕ → List ℕ) : ListCall → ℕ → List ℕ
  | init _ => t
  | add x i => bucketAdd t i x
  | addTail x i => Function.update t i (t i ++ [x])
  | fate x f => f.apply t x
  | spliceTailInit i j => Function.update (Function.update t i []) j (t j ++ t i)
  | forEachSafe i body => (t i).foldl (fun t x => (body x).apply t x) t
  | store _ => t

/-- What a call does in memory: a loop ends after some number of rounds. -/
def Runs (head : ℕ → ℕ) (m m' : Memory) : ListCall → Prop
  | init x => m' = listInit m x
  | add x i => m' = listAdd m x (head i)
  | addTail x i => m' = listAddTail m x (head i)
  | fate x f => m' = f.run head m x
  | spliceTailInit i j => m' = listSpliceTailInit m (head i) (head j)
  | forEachSafe i body => ∃ fuel, listForEachSafe (fun m x => (body x).run head m x) (head i) fuel
      m (nodeNext m (head i)) (nodeNext m (nodeNext m (head i))) = some m'
  | store m'' => m' = m''

/-- **When a call is made**: a node that is added is in no list, one that is taken out is in
one, and the body of a loop puts no node into the list the loop is on. -/
def Ok (N : NodeSet) (head : ℕ → ℕ) (n : ℕ) (w : ListWorld) : ListCall → Prop
  | init x => x ∈ N.nodes ∧ ∀ i < n, x ∉ head i :: w.list i
  | add x i => i < n ∧ x ∈ N.nodes ∧ ∀ j < n, x ∉ head j :: w.list j
  | addTail x i => i < n ∧ x ∈ N.nodes ∧ ∀ j < n, x ∉ head j :: w.list j
  | fate x f => f.Ok n ∧ ∃ i < n, x ∈ w.list i
  | spliceTailInit i j => i < n ∧ j < n ∧ i ≠ j
  | forEachSafe i body => i < n ∧ ∀ x ∈ w.list i, (body x).Ok n ∧ (body x).Avoids i
  | store m => ∀ x ∈ N.nodes, Agree m w.mem x nodeSize

end ListCall

/-- **A table of lists under any calls**, from `hashtable_init`. -/
def listSystem (N : NodeSet) (table n : ℕ) : System ListWorld ListCall where
  init w := (∀ i < n, table + i * nodeSize ∈ N.nodes)
    ∧ (∃ m, w.mem = hashtableInit m table n) ∧ w.list = fun _ => []
  step w l w' := l.Ok N (fun i => table + i * nodeSize) n w
    ∧ l.Runs (fun i => table + i * nodeSize) w.mem w'.mem ∧ w'.list = l.apply w.list

/-! ## A table of rings refines a table of lists -/

/-- **The lists are in memory**, as rings of nodes. -/
structure ListsIn (N : NodeSet) (head : ℕ → ℕ) (n : ℕ) (m : Memory) (t : ℕ → List ℕ) :
    Prop where
  /-- The rings. -/
  rings : (pointers m).Rings head n t
  /-- Their nodes. -/
  nodes : ∀ i < n, ∀ x ∈ head i :: t i, x ∈ N.nodes

namespace ListsIn

variable {N : NodeSet} {head : ℕ → ℕ} {n i j x : ℕ} {m m' : Memory} {t : ℕ → List ℕ}

/-- Memory in which the links read the same. -/
theorem of_eqOn (h : ListsIn N head n m t) (hq : Pointers.EqOn N.nodes (pointers m') (pointers m)) :
    ListsIn N head n m' t := ⟨h.rings.of_eqOn hq h.nodes, h.nodes⟩

/-- What a head points at is a node. -/
theorem next_mem (h : ListsIn N head n m t) (hi : i < n) : nodeNext m (head i) ∈ N.nodes :=
  h.nodes i hi _ (h.rings.next_mem hi)

/-- What a head points back at is a node. -/
theorem prev_mem (h : ListsIn N head n m t) (hi : i < n) : nodePrev m (head i) ∈ N.nodes :=
  h.nodes i hi _ (h.rings.prev_mem hi)

theorem head_mem (h : ListsIn N head n m t) (hi : i < n) : head i ∈ N.nodes :=
  h.nodes i hi _ List.mem_cons_self

/-- The nodes after one is put into a list. -/
theorem nodes_update (h : ListsIn N head n m t) {ys : List ℕ} (hys : ∀ y ∈ ys, y ∈ N.nodes) :
    ∀ j < n, ∀ y ∈ head j :: Function.update t i ys j, y ∈ N.nodes := by
  intro j hj y hy
  rcases List.mem_cons.mp hy with rfl | hy
  · exact h.head_mem hj
  · by_cases hji : j = i
    · rw [hji, Function.update_self] at hy
      exact hys y hy
    · rw [Function.update_of_ne hji] at hy
      exact h.nodes j hj y (List.mem_cons_of_mem _ hy)

/-- **`list_add`.** -/
theorem add (h : ListsIn N head n m t) (hi : i < n) (hx : x ∈ N.nodes)
    (hfresh : ∀ j < n, x ∉ head j :: t j) :
    ListsIn N head n (listAdd m x (head i)) (bucketAdd t i x) := by
  have hnodes := @nodes_update N head n i m t h (x :: t i) (fun y hy => by
    rcases List.mem_cons.mp hy with rfl | hy
    · exact hx
    · exact h.nodes i hi y (List.mem_cons_of_mem _ hy))
  have hadd := h.rings.add hi hfresh
  exact ⟨hadd.of_eqOn (eqOn_listAddBetween N m hx (h.head_mem hi) (h.next_mem hi)) hnodes, hnodes⟩

/-- **`list_add_tail`.** -/
theorem addTail (h : ListsIn N head n m t) (hi : i < n) (hx : x ∈ N.nodes)
    (hfresh : ∀ j < n, x ∉ head j :: t j) :
    ListsIn N head n (listAddTail m x (head i)) (Function.update t i (t i ++ [x])) := by
  have hnodes := @nodes_update N head n i m t h (t i ++ [x]) (fun y hy => by
    rcases List.mem_append.mp hy with hy | hy
    · exact h.nodes i hi y (List.mem_cons_of_mem _ hy)
    · exact List.mem_singleton.mp hy ▸ hx)
  have hadd := h.rings.addTail hi hfresh
  exact ⟨hadd.of_eqOn (eqOn_listAddBetween N m hx (h.prev_mem hi) (h.head_mem hi)) hnodes, hnodes⟩

/-- **`list_del`.** -/
theorem del (h : ListsIn N head n m t) (hi : i < n) (hx : x ∈ t i) :
    ListsIn N head n (listDel m x) (bucketDel t x) := by
  have hnodes : ∀ j < n, ∀ y ∈ head j :: bucketDel t x j, y ∈ N.nodes := fun j hj y hy => by
    rcases List.mem_cons.mp hy with rfl | hy
    · exact h.head_mem hj
    · exact h.nodes j hj y (List.mem_cons_of_mem _ (List.mem_of_mem_erase hy))
  have hneighbours := (h.rings.ring i hi).neighbours hx
  have hdel := h.rings.del hi hx
  exact ⟨hdel.of_eqOn (eqOn_listDelBetween N m (h.nodes i hi _ hneighbours.1)
    (h.nodes i hi _ hneighbours.2)) hnodes, hnodes⟩

/-- A node that was taken out is in no list. -/
theorem notMem_del (h : ListsIn N head n m t) (hi : i < n) (hx : x ∈ t i) :
    ∀ j < n, x ∉ head j :: bucketDel t x j := by
  have hnode : ∀ j < n, x ≠ head j := fun j hj he => by
    by_cases hji : j = i
    · rw [he, hji] at hx
      exact (List.nodup_cons.mp (h.rings.nodup i hi)).1 hx
    · exact h.rings.notMem hi hj hji (List.mem_cons_of_mem _ hx) (he ▸ List.mem_cons_self)
  intro j hj hmem
  rcases List.mem_cons.mp hmem with he | hmem
  · exact hnode j hj he
  · exact (List.nodup_cons.mp (h.rings.nodup j hj)).2.not_mem_erase hmem

/-- **What a call does with one node.** -/
theorem fate (h : ListsIn N head n m t) (hi : i < n) (hx : x ∈ t i) {f : Fate} (hf : f.Ok n) :
    ListsIn N head n (f.run head m x) (f.apply t x) := by
  have hxN : x ∈ N.nodes := h.nodes i hi x (List.mem_cons_of_mem _ hx)
  cases f with
  | stays => exact h
  | taken => exact h.del hi hx
  | added j => exact (h.del hi hx).add hf hxN (h.notMem_del hi hx)
  | moved j =>
    rw [Fate.run, listMoveTail_eq]
    exact (h.del hi hx).addTail hf hxN (h.notMem_del hi hx)

/-- **`INIT_LIST_HEAD`** of a node that is in no list. -/
theorem init (h : ListsIn N head n m t) (hx : x ∈ N.nodes) (hfresh : ∀ i < n, x ∉ head i :: t i) :
    ListsIn N head n (listInit m x) t := by
  have hrings : ((pointers m).join x x).Rings head n t :=
    ⟨h.rings.toApart, fun i hi => (h.rings.ring i hi).join_of_notMem (hfresh i hi) (hfresh i hi)⟩
  have hstores := eqOn_setPrev_setNext N m hx hx
  rw [← listInit] at hstores
  exact ⟨hrings.of_eqOn hstores h.nodes, h.nodes⟩

/-- `list_empty` answers whether there is no node. -/
theorem listEmpty_eq (h : ListsIn N head n m t) (hi : i < n) :
    listEmpty m (head i) = (t i).isEmpty := by
  have hnext : nodeNext m (head i) = (t i).headD (head i) := (h.rings.ring i hi).next_eq
  rw [listEmpty, hnext]
  cases hlist : t i with
  | nil => exact beq_self_eq_true _
  | cons x rest =>
    refine beq_false_of_ne (fun he => ?_)
    have hnodup := h.rings.nodup i hi
    rw [hlist] at hnodup
    exact (List.nodup_cons.mp hnodup).1 (he ▸ List.mem_cons_self)

/-- **`list_splice_tail_init`.** -/
theorem spliceTailInit (h : ListsIn N head n m t) (hi : i < n) (hj : j < n) (hij : i ≠ j) :
    ListsIn N head n (listSpliceTailInit m (head i) (head j))
      (Function.update (Function.update t i []) j (t j ++ t i)) := by
  have hnodes : ∀ k < n, ∀ y ∈ head k :: Function.update (Function.update t i []) j
      (t j ++ t i) k, y ∈ N.nodes := by
    intro k hk y hy
    rcases List.mem_cons.mp hy with rfl | hy
    · exact h.head_mem hk
    · by_cases hkj : k = j
      · rw [hkj, Function.update_self] at hy
        rcases List.mem_append.mp hy with hy | hy
        · exact h.nodes j hj y (List.mem_cons_of_mem _ hy)
        · exact h.nodes i hi y (List.mem_cons_of_mem _ hy)
      · rw [Function.update_of_ne hkj] at hy
        by_cases hki : k = i
        · rw [hki, Function.update_self] at hy
          exact absurd hy List.not_mem_nil
        · rw [Function.update_of_ne hki] at hy
          exact h.nodes k hk y (List.mem_cons_of_mem _ hy)
  rw [listSpliceTailInit, h.listEmpty_eq hi]
  by_cases hempty : t i = []
  · have hsame : Function.update (Function.update t i []) j (t j ++ t i) = t := by
      rw [hempty, List.append_nil, ← hempty, Function.update_eq_self, Function.update_eq_self]
    rw [if_pos (List.isEmpty_iff.mpr hempty), hsame]
    exact h
  · rw [if_neg (fun he => hempty (List.isEmpty_iff.mp he))]
    have hsplice := h.rings.splice hi hj hij hempty
    refine ⟨hsplice.of_eqOn ?_ hnodes, hnodes⟩
    refine (eqOn_setPrev_setNext N _ (h.head_mem hi) (h.head_mem hi)).trans (.join ?_ _ _)
    refine (eqOn_setPrev_setNext N _ (h.prev_mem hi) (h.head_mem hj)).trans (.join ?_ _ _)
    exact eqOn_listDelBetween N m (h.prev_mem hj) (h.next_mem hi)

/-- Stores to anything that is no node. -/
theorem store (h : ListsIn N head n m t) (hm : ∀ x ∈ N.nodes, Agree m' m x nodeSize) :
    ListsIn N head n m' t :=
  h.of_eqOn (fun x hx => ⟨nodeNext_congr (hm x hx), nodePrev_congr (hm x hx)⟩)

end ListsIn

/-! ### The loop -/

/-- The list that a node is not put into keeps it or loses it. -/
theorem Fate.apply_of_avoids {f : Fate} {t : ℕ → List ℕ} {x i : ℕ} (h : f.Avoids i) :
    f.apply t x i = t i ∨ f.apply t x i = (t i).erase x := by
  cases f with
  | stays => exact Or.inl rfl
  | taken => exact Or.inr rfl
  | added j => exact Or.inr (Function.update_of_ne (Ne.symm h) _ _)
  | moved j => exact Or.inr (Function.update_of_ne (Ne.symm h) _ _)

/-- More rounds answer the same. -/
theorem listForEachSafe_mono {body : Memory → ℕ → Memory} {head : ℕ} {m' : Memory} :
    ∀ {fuel fuel' : ℕ} {m : Memory} {pos n : ℕ}, fuel ≤ fuel' →
      listForEachSafe body head fuel m pos n = some m' →
      listForEachSafe body head fuel' m pos n = some m'
  | 0, _, _, _, _, _, h => absurd h (by rw [listForEachSafe]; exact Option.some_ne_none m' ∘ Eq.symm)
  | fuel + 1, 0, _, _, _, hle, _ => absurd hle (Nat.not_succ_le_zero fuel)
  | fuel + 1, fuel' + 1, m, pos, n, hle, h => by
    rw [listForEachSafe] at h ⊢
    by_cases hpos : pos = head
    · rwa [if_pos hpos] at h ⊢
    · rw [if_neg hpos] at h ⊢
      exact listForEachSafe_mono (Nat.le_of_succ_le_succ hle) h

section Loop

variable {N : NodeSet} {head : ℕ → ℕ} {n i : ℕ} {body : ℕ → Fate}

/-- The loop past the nodes `kept`: it meets each of the others once, with `rest` for what
is still ahead of it whatever the body did. -/
theorem ListsIn.forEachSafe_loop (hi : i < n) (rest : List ℕ) :
    ∀ (kept : List ℕ) (t : ℕ → List ℕ) (m : Memory) (fuel : ℕ), ListsIn N head n m t →
      t i = kept ++ rest → (∀ x ∈ rest, (body x).Ok n ∧ (body x).Avoids i) →
      rest.length < fuel →
      ∃ m', listForEachSafe (fun m x => (body x).run head m x) (head i) fuel m
          (rest.headD (head i)) (nodeNext m (rest.headD (head i))) = some m'
        ∧ ListsIn N head n m' (rest.foldl (fun t x => (body x).apply t x) t) := by
  induction rest with
  | nil =>
    intro kept t m fuel h _ _ hfuel
    obtain ⟨fuel, rfl⟩ := Nat.exists_eq_succ_of_ne_zero hfuel.ne'
    exact ⟨m, by rw [List.headD_nil, listForEachSafe, if_pos rfl], h⟩
  | cons x rest ih =>
    intro kept t m fuel h ht hbody hfuel
    obtain ⟨fuel, rfl⟩ := Nat.exists_eq_succ_of_ne_zero (Nat.ne_zero_of_lt hfuel)
    have hx : x ∈ t i := by
      rw [ht]
      exact List.mem_append_right kept List.mem_cons_self
    have hnodup := List.nodup_cons.mp (h.rings.nodup i hi)
    have hne : x ≠ head i := fun he => hnodup.1 (he ▸ hx)
    have hnext : nodeNext m x = rest.headD (head i) := by
      have hring := h.rings.ring i hi
      rw [ht] at hring
      exact hring.next_eq_of_append
    obtain ⟨hok, havoids⟩ := hbody x List.mem_cons_self
    have hstep := h.fate hi hx hok
    obtain ⟨kept', hkept⟩ : ∃ kept', (body x).apply t x i = kept' ++ rest := by
      rcases Fate.apply_of_avoids (t := t) (x := x) havoids with he | he
      · exact ⟨kept ++ [x], by rw [he, ht, List.append_assoc]; rfl⟩
      · have hxkept : x ∉ kept := fun hmem => by
          have hboth := hnodup.2
          rw [ht] at hboth
          exact (List.nodup_append.mp hboth).2.2 x hmem x List.mem_cons_self rfl
        exact ⟨kept, by rw [he, ht, List.erase_append_right _ hxkept, List.erase_cons_head]⟩
    obtain ⟨m', hm', hin⟩ := ih kept' _ _ fuel hstep hkept
      (fun y hy => hbody y (List.mem_cons_of_mem x hy)) (Nat.lt_of_succ_lt_succ hfuel)
    refine ⟨m', ?_, hin⟩
    rw [List.headD_cons, listForEachSafe, if_neg hne, hnext]
    exact hm'

/-- **`list_for_each_entry_safe` ends**, and its body was run once for each node that was in
the list, in order. -/
theorem ListsIn.forEachSafe {m : Memory} {t : ℕ → List ℕ} (h : ListsIn N head n m t) (hi : i < n)
    (hbody : ∀ x ∈ t i, (body x).Ok n ∧ (body x).Avoids i) {fuel : ℕ}
    (hfuel : (t i).length < fuel) :
    ∃ m', listForEachSafe (fun m x => (body x).run head m x) (head i) fuel m
        (nodeNext m (head i)) (nodeNext m (nodeNext m (head i))) = some m'
      ∧ ListsIn N head n m' ((t i).foldl (fun t x => (body x).apply t x) t) := by
  have hfirst : nodeNext m (head i) = (t i).headD (head i) := (h.rings.ring i hi).next_eq
  rw [hfirst]
  exact ListsIn.forEachSafe_loop hi (t i) [] t m fuel h rfl hbody hfuel

end Loop

/-! ## Every run -/

/-- **A new hash table** is a table of empty lists. -/
theorem listsIn_hashtableInit {N : NodeSet} {table n : ℕ} (m : Memory)
    (hN : ∀ i < n, table + i * nodeSize ∈ N.nodes) :
    ListsIn N (fun i => table + i * nodeSize) n (hashtableInit m table n) (fun _ => []) := by
  have hne : ∀ {i j : ℕ}, i ≠ j → table + i * nodeSize ≠ table + j * nodeSize := fun hij he =>
    hij (Nat.eq_of_mul_eq_mul_right (show 0 < nodeSize by decide) (Nat.add_left_cancel he))
  induction n with
  | zero =>
    exact ⟨⟨⟨fun i hi => absurd hi (Nat.not_lt_zero i), fun i hi => absurd hi (Nat.not_lt_zero i)⟩,
      fun i hi => absurd hi (Nat.not_lt_zero i)⟩, fun i hi => absurd hi (Nat.not_lt_zero i)⟩
  | succ n ih =>
    have h := ih (fun i hi => hN i (Nat.lt_succ_of_lt hi))
    have hn : table + n * nodeSize ∈ N.nodes := hN n (Nat.lt_succ_self n)
    have hnodes : ∀ i < n + 1, ∀ x ∈ (table + i * nodeSize) :: ([] : List ℕ), x ∈ N.nodes :=
      fun i hi x hx => List.mem_singleton.mp hx ▸ hN i hi
    have hrings : ((pointers (hashtableInit m table n)).join (table + n * nodeSize)
        (table + n * nodeSize)).Rings (fun i => table + i * nodeSize) (n + 1) (fun _ => []) := by
      refine ⟨⟨fun i _ => List.nodup_singleton _, fun i _ j _ hij x hx hx' => ?_⟩, fun i hi => ?_⟩
      · exact hne hij ((List.mem_singleton.mp hx).symm.trans (List.mem_singleton.mp hx'))
      · rcases Nat.lt_succ_iff_lt_or_eq.mp hi with hlt | rfl
        · have hnot : table + n * nodeSize ∉ (table + i * nodeSize) :: ([] : List ℕ) :=
            fun hx => hne hlt.ne' (List.mem_singleton.mp hx)
          exact (h.rings.ring i hlt).join_of_notMem hnot hnot
        · exact Pointers.ring_join_self _ _
    have hstores := eqOn_setPrev_setNext N (hashtableInit m table n) hn hn
    rw [← listInit] at hstores
    rw [hashtableInit, List.range_succ, List.foldl_append, List.foldl_cons, List.foldl_nil,
      ← hashtableInit]
    exact ⟨hrings.of_eqOn hstores hnodes, hnodes⟩

section Runs

variable {N : NodeSet} {table n : ℕ}

/-- **A call in memory is the call on the lists.** -/
theorem ListsIn.step {head : ℕ → ℕ} {w w' : ListWorld} {l : ListCall}
    (h : ListsIn N head n w.mem w.list) (hok : l.Ok N head n w)
    (hrun : l.Runs head w.mem w'.mem) (hlist : w'.list = l.apply w.list) :
    ListsIn N head n w'.mem w'.list := by
  rw [hlist]
  cases l with
  | init x =>
    rw [show w'.mem = listInit w.mem x from hrun]
    exact h.init hok.1 hok.2
  | add x i =>
    rw [show w'.mem = listAdd w.mem x (head i) from hrun]
    exact h.add hok.1 hok.2.1 hok.2.2
  | addTail x i =>
    rw [show w'.mem = listAddTail w.mem x (head i) from hrun]
    exact h.addTail hok.1 hok.2.1 hok.2.2
  | fate x f =>
    obtain ⟨hf, i, hi, hx⟩ := hok
    rw [show w'.mem = f.run head w.mem x from hrun]
    exact h.fate hi hx hf
  | spliceTailInit i j =>
    rw [show w'.mem = listSpliceTailInit w.mem (head i) (head j) from hrun]
    exact h.spliceTailInit hok.1 hok.2.1 hok.2.2
  | forEachSafe i body =>
    obtain ⟨fuel, hfuel⟩ := hrun
    obtain ⟨m', hm', hin⟩ := h.forEachSafe hok.1 hok.2
      (Nat.lt_succ_of_le (Nat.le_max_left (w.list i).length fuel))
    have hsame := listForEachSafe_mono
      (Nat.le_succ_of_le (Nat.le_max_right (w.list i).length fuel)) hfuel
    rw [Option.some_inj.mp (hsame.symm.trans hm')]
    exact hin
  | store m =>
    rw [show w'.mem = m from hrun]
    exact h.store hok

/-- The lists are read off memory, from either end, and no loop over them goes astray. -/
structure ListWorld.Read (head : ℕ → ℕ) (n : ℕ) (w : ListWorld) : Prop where
  /-- No node is in a list twice, in two lists, or a head. -/
  apart : Pointers.Apart head n w.list
  /-- `list_for_each_entry` meets the nodes of a list, in order, and ends. -/
  forward : ∀ i < n, ∀ fuel, (w.list i).length < fuel →
    listForEach w.mem (head i) fuel = some (w.list i)
  /-- The links back lead through them in the other order. -/
  backward : ∀ i < n, ∀ fuel, (w.list i).length < fuel →
    (pointers w.mem).swap.walk (head i) fuel (nodePrev w.mem (head i))
      = some (w.list i).reverse
  /-- `list_empty` answers whether there are any. -/
  empty : ∀ i < n, listEmpty w.mem (head i) = (w.list i).isEmpty
  /-- `list_for_each_entry_safe` ends, whatever its body does to the nodes. -/
  ends : ∀ i < n, ∀ body : ℕ → Fate, (∀ x ∈ w.list i, (body x).Ok n ∧ (body x).Avoids i) →
    ∀ fuel, (w.list i).length < fuel →
      (listForEachSafe (fun m x => (body x).run head m x) (head i) fuel w.mem
        (nodeNext w.mem (head i)) (nodeNext w.mem (nodeNext w.mem (head i)))).isSome

theorem ListsIn.read {head : ℕ → ℕ} {w : ListWorld} (h : ListsIn N head n w.mem w.list) :
    w.Read head n where
  apart := h.rings.toApart
  forward i hi _ hfuel :=
    (h.rings.ring i hi).walk_eq (List.nodup_cons.mp (h.rings.nodup i hi)).1 hfuel
  backward i hi fuel hfuel := by
    have hnot : head i ∉ (w.list i).reverse := fun hmem =>
      (List.nodup_cons.mp (h.rings.nodup i hi)).1 (List.mem_reverse.mp hmem)
    exact (h.rings.ring i hi).swap.walk_eq hnot (by rwa [List.length_reverse])
  empty _ hi := h.listEmpty_eq hi
  ends i hi body hbody fuel hfuel := by
    obtain ⟨m', hm', -⟩ := h.forEachSafe hi hbody hfuel
    rw [hm']
    rfl

/-- **The lists in memory are the lists**, after any run of calls from `hashtable_init`. -/
theorem listSystem_refines {w : ListWorld} (h : (listSystem N table n).Reachable w) :
    w.Read (fun i => table + i * nodeSize) n := by
  have hinit : ∀ w, (listSystem N table n).init w →
      ListsIn N (fun i => table + i * nodeSize) n w.mem w.list := by
    rintro w ⟨hN, ⟨m, hm⟩, hlist⟩
    rw [hm, hlist]
    exact listsIn_hashtableInit m hN
  have hstep : ∀ w l w', ListsIn N (fun i => table + i * nodeSize) n w.mem w.list →
      (listSystem N table n).step w l w' →
      ListsIn N (fun i => table + i * nodeSize) n w'.mem w'.list :=
    fun w l w' hw hst => hw.step hst.1 hst.2.1 hst.2.2
  exact (System.invariant hinit hstep h).read

end Runs

/-- Three nodes: the heads of two lists, and one more. -/
def threeNodes : NodeSet where
  nodes := {0x1000, 0x1010, 0x2000}
  apart := by
    unfold NodesOk chunksApart nodeSize
    intro a ha b hb
    simp only [Set.mem_insert_iff, Set.mem_singleton_iff] at ha hb
    omega
  bound := by
    intro a ha
    simp only [Set.mem_insert_iff, Set.mem_singleton_iff] at ha
    omega

/-- The node has been added to the first list, and a loop has moved it to the second. -/
theorem reachable_moved : ∃ w, (listSystem threeNodes 0x1000 2).Reachable w
    ∧ w.list 0 = [] ∧ w.list 1 = [0x2000] := by
  have hheads : ∀ i < 2, 0x1000 + i * nodeSize ∈ threeNodes.nodes := by
    intro i hi
    obtain rfl | rfl : i = 0 ∨ i = 1 := by omega
    · exact Or.inl rfl
    · exact Or.inr (Or.inl rfl)
  let start : ListWorld := ⟨hashtableInit (fun _ => 0) 0x1000 2, fun _ => []⟩
  have hstart : (listSystem threeNodes 0x1000 2).Reachable start :=
    .of_init ⟨hheads, ⟨_, rfl⟩, rfl⟩
  let added : ListWorld := ⟨listAdd start.mem 0x2000 0x1000, bucketAdd start.list 0 0x2000⟩
  have hadded : (listSystem threeNodes 0x1000 2).Reachable added := by
    refine hstart.step (l := .add 0x2000 0) ⟨⟨Nat.two_pos, Or.inr (Or.inr rfl), ?_⟩, rfl, rfl⟩
    intro j hj
    obtain rfl | rfl : j = 0 ∨ j = 1 := by omega
    · decide
    · decide
  have hbody : ∀ x ∈ added.list 0, (Fate.moved 1).Ok 2 ∧ (Fate.moved 1).Avoids 0 :=
    fun _ _ => ⟨Nat.one_lt_two, Nat.one_ne_zero⟩
  obtain ⟨m', hm'⟩ := Option.isSome_iff_exists.mp
    ((listSystem_refines hadded).ends 0 Nat.two_pos (fun _ => .moved 1) hbody 2 (by decide))
  refine ⟨⟨m', _⟩, hadded.step (l := .forEachSafe 0 (fun _ => .moved 1))
    ⟨⟨Nat.two_pos, hbody⟩, ⟨2, hm'⟩, rfl⟩, ?_, ?_⟩
  · rfl
  · rfl

/-- The second list is read off memory. -/
theorem listSystem_refines_moved : ∃ w, (listSystem threeNodes 0x1000 2).Reachable w
    ∧ listForEach w.mem 0x1010 2 = some [0x2000] := by
  obtain ⟨w, hw, -, hlist⟩ := reachable_moved
  have hread := (listSystem_refines hw).forward 1 Nat.one_lt_two 2 (by rw [hlist]; decide)
  rw [hlist] at hread
  exact ⟨w, hw, hread⟩
