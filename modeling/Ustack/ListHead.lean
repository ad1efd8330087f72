import Ustack.Blocks
import Ustack.Bytes

/-!
# Circular doubly linked lists in memory

Lists whose links are inside the elements: a node is sixteen bytes, the address of
the next node and that of the one before, and a list is a ring of nodes through
its head. What a list holds is not stored anywhere; `Circular` says that following
the links from the head meets the nodes of a given list and comes back.

Nodes do not overlap: two are the same or sixteen bytes apart. With that a store
to one link changes no other link, and adding a node changes four.
-/

/-- The size of a node. -/
def nodeSize : ℕ := 16

/-- `list->next`. -/
def nodeNext (m : Memory) (a : ℕ) : ℕ := loadNat m a 8

/-- `list->prev`. -/
def nodePrev (m : Memory) (a : ℕ) : ℕ := loadNat m (a + 8) 8

/-- Store `list->next`. -/
def setNext (m : Memory) (a v : ℕ) : Memory := storeNat m a 8 v

/-- Store `list->prev`. -/
def setPrev (m : Memory) (a v : ℕ) : Memory := storeNat m (a + 8) 8 v

/-- `INIT_LIST_HEAD`. -/
def listInit (m : Memory) (head : ℕ) : Memory := setPrev (setNext m head head) head head

/-- `__list_add`. -/
def listAddBetween (m : Memory) (new prev next : ℕ) : Memory :=
  setNext (setPrev (setNext (setPrev m next new) new next) new prev) prev new

/-- `list_add`. -/
def listAdd (m : Memory) (new head : ℕ) : Memory :=
  listAddBetween m new head (nodeNext m head)

/-! ## Links and stores -/

section Links

variable {m m' : Memory} {a b v : ℕ}

/-- Nodes are the same or do not overlap. -/
def NodesOk (a b : ℕ) : Prop := a = b ∨ chunksApart nodeSize a b

theorem agree_setNext (m : Memory) (v : ℕ) {p k : ℕ} (h : p + k ≤ a ∨ a + 8 ≤ p) :
    Agree (setNext m a v) m p k := agree_storeBytes m _ h

theorem agree_setPrev (m : Memory) (v : ℕ) {p k : ℕ} (h : p + k ≤ a + 8 ∨ a + 16 ≤ p) :
    Agree (setPrev m a v) m p k := agree_storeBytes m _ h

theorem nodeNext_congr (h : Agree m' m a nodeSize) : nodeNext m' a = nodeNext m a :=
  loadNat_congr (h.sub le_rfl (by unfold nodeSize; omega))

theorem nodePrev_congr (h : Agree m' m a nodeSize) : nodePrev m' a = nodePrev m a :=
  loadNat_congr (h.sub (Nat.le_add_right a 8) (by unfold nodeSize; omega))

theorem nodeNext_setNext (m : Memory) (a : ℕ) (hv : v < 2 ^ 64) :
    nodeNext (setNext m a v) a = v :=
  (loadNat_storeNat m a 8 v).trans (Nat.mod_eq_of_lt hv)

theorem nodePrev_setPrev (m : Memory) (a : ℕ) (hv : v < 2 ^ 64) :
    nodePrev (setPrev m a v) a = v :=
  (loadNat_storeNat m (a + 8) 8 v).trans (Nat.mod_eq_of_lt hv)

theorem nodeNext_setNext_of_apart (m : Memory) (v : ℕ) (h : chunksApart nodeSize a b) :
    nodeNext (setNext m a v) b = nodeNext m b := by
  unfold chunksApart nodeSize at h
  exact loadNat_congr (agree_setNext m v (by omega))

theorem nodePrev_setPrev_of_apart (m : Memory) (v : ℕ) (h : chunksApart nodeSize a b) :
    nodePrev (setPrev m a v) b = nodePrev m b := by
  unfold chunksApart nodeSize at h
  exact loadNat_congr (agree_setPrev m v (by omega))

theorem nodeNext_setPrev (m : Memory) (v : ℕ) (h : NodesOk a b) :
    nodeNext (setPrev m a v) b = nodeNext m b := by
  unfold NodesOk chunksApart nodeSize at h
  exact loadNat_congr (agree_setPrev m v (by omega))

theorem nodePrev_setNext (m : Memory) (v : ℕ) (h : NodesOk a b) :
    nodePrev (setNext m a v) b = nodePrev m b := by
  unfold NodesOk chunksApart nodeSize at h
  exact loadNat_congr (agree_setNext m v (by omega))

end Links

/-! ## Lists -/

/-- From one node the links lead through a list of nodes to another. -/
def Linked (m : Memory) : ℕ → List ℕ → ℕ → Prop
  | a, [], b => nodeNext m a = b ∧ nodePrev m b = a
  | a, x :: xs, b => (nodeNext m a = x ∧ nodePrev m x = a) ∧ Linked m x xs b

/-- **The list at a head**, as the nodes on it. -/
def Circular (m : Memory) (head : ℕ) (xs : List ℕ) : Prop := Linked m head xs head

section Lists

variable {m m' : Memory} {a b head new : ℕ} {xs : List ℕ}

/-- Links that read the same lead the same way. -/
theorem Linked.congr (hnext : ∀ x ∈ a :: xs, nodeNext m' x = nodeNext m x)
    (hprev : ∀ x ∈ xs ++ [b], nodePrev m' x = nodePrev m x) (h : Linked m a xs b) :
    Linked m' a xs b := by
  induction xs generalizing a with
  | nil =>
    exact ⟨(hnext a (List.mem_singleton_self a)).trans h.1,
      (hprev b (List.mem_singleton_self b)).trans h.2⟩
  | cons x xs ih =>
    refine ⟨⟨(hnext a List.mem_cons_self).trans h.1.1,
      (hprev x List.mem_cons_self).trans h.1.2⟩, ih ?_ ?_ h.2⟩
    · exact fun y hy => hnext y (List.mem_cons_of_mem a hy)
    · exact fun y hy => hprev y (List.mem_cons_of_mem x hy)

/-- A list whose nodes are unchanged. -/
theorem Circular.congr (h : Circular m head xs)
    (hnodes : ∀ x ∈ head :: xs, Agree m' m x nodeSize) : Circular m' head xs := by
  refine Linked.congr (fun x hx => nodeNext_congr (hnodes x hx)) (fun x hx => ?_) h
  refine nodePrev_congr (hnodes x ?_)
  rcases List.mem_append.mp hx with hx | hx
  · exact List.mem_cons_of_mem head hx
  · exact List.mem_singleton.mp hx ▸ List.mem_cons_self

/-- A new list is empty. -/
theorem circular_listInit (m : Memory) (hhead : head < 2 ^ 64) :
    Circular (listInit m head) head [] :=
  ⟨(nodeNext_setPrev _ _ (Or.inl rfl)).trans (nodeNext_setNext m head hhead),
    nodePrev_setPrev _ head hhead⟩

/-- The bytes that it is stored to. -/
theorem agree_listInit (m : Memory) {p k : ℕ} (h : p + k ≤ head ∨ head + nodeSize ≤ p) :
    Agree (listInit m head) m p k := by
  unfold nodeSize at h
  exact (agree_setPrev _ _ (by omega)).trans (agree_setNext _ _ (by omega))

/-- The first node of a list, or the head of an empty one. -/
theorem Circular.nodeNext_eq (h : Circular m head xs) : nodeNext m head = xs.headD head := by
  cases xs with
  | nil => exact h.1
  | cons x xs => exact h.1.1

theorem Circular.nodeNext_mem (h : Circular m head xs) : nodeNext m head ∈ head :: xs := by
  rw [h.nodeNext_eq]
  cases xs with
  | nil => exact List.mem_cons_self
  | cons x xs => exact List.mem_cons_of_mem head List.mem_cons_self

/-- The bytes that adding a node stores to. -/
theorem agree_listAdd (m : Memory) {p k : ℕ}
    (hnew : p + k ≤ new ∨ new + nodeSize ≤ p) (hhead : p + k ≤ head ∨ head + nodeSize ≤ p)
    (hnext : p + k ≤ nodeNext m head ∨ nodeNext m head + nodeSize ≤ p) :
    Agree (listAdd m new head) m p k := by
  unfold nodeSize at hnew hhead hnext
  refine (agree_setNext _ _ (by omega)).trans ((agree_setPrev _ _ (by omega)).trans
    ((agree_setNext _ _ (by omega)).trans (agree_setPrev _ _ (by omega))))

/-- The links around a node that is added. -/
theorem links_listAddBetween (m : Memory) {prev next : ℕ}
    (hprev : chunksApart nodeSize new prev) (hnext : chunksApart nodeSize new next)
    (hends : NodesOk prev next) (hnewlt : new < 2 ^ 64) (hprevlt : prev < 2 ^ 64)
    (hnextlt : next < 2 ^ 64) :
    (nodeNext (listAddBetween m new prev next) prev = new
        ∧ nodePrev (listAddBetween m new prev next) new = prev)
      ∧ nodeNext (listAddBetween m new prev next) new = next
        ∧ nodePrev (listAddBetween m new prev next) next = new := by
  refine ⟨⟨?_, ?_⟩, ?_, ?_⟩
  · exact nodeNext_setNext _ _ hnewlt
  · rw [listAddBetween, nodePrev_setNext _ _ (Or.inr hprev.symm)]
    exact nodePrev_setPrev _ _ hprevlt
  · rw [listAddBetween, nodeNext_setNext_of_apart _ _ hprev.symm,
      nodeNext_setPrev _ _ (Or.inl rfl)]
    exact nodeNext_setNext _ _ hnextlt
  · rw [listAddBetween, nodePrev_setNext _ _ hends, nodePrev_setPrev_of_apart _ _ hnext,
      nodePrev_setNext _ _ (Or.inr hnext)]
    exact nodePrev_setPrev _ _ hnewlt

/-- The other links. -/
theorem nodeNext_listAddBetween (m : Memory) {prev next y : ℕ}
    (hnew : chunksApart nodeSize new y) (hprev : chunksApart nodeSize prev y)
    (hnext : NodesOk next y) : nodeNext (listAddBetween m new prev next) y = nodeNext m y := by
  rw [listAddBetween, nodeNext_setNext_of_apart _ _ hprev, nodeNext_setPrev _ _ (Or.inr hnew),
    nodeNext_setNext_of_apart _ _ hnew, nodeNext_setPrev _ _ hnext]

theorem nodePrev_listAddBetween (m : Memory) {prev next y : ℕ}
    (hnew : chunksApart nodeSize new y) (hprev : NodesOk prev y)
    (hnext : chunksApart nodeSize next y) :
    nodePrev (listAddBetween m new prev next) y = nodePrev m y := by
  rw [listAddBetween, nodePrev_setNext _ _ hprev, nodePrev_setPrev_of_apart _ _ hnew,
    nodePrev_setNext _ _ (Or.inr hnew), nodePrev_setPrev_of_apart _ _ hnext]

/-- **Adding a node puts it in front.** -/
theorem Circular.add (h : Circular m head xs)
    (hnew : ∀ x ∈ head :: xs, chunksApart nodeSize new x)
    (hnodes : (head :: xs).Pairwise (chunksApart nodeSize))
    (hbound : ∀ x ∈ new :: head :: xs, x < 2 ^ 64) :
    Circular (listAdd m new head) head (new :: xs) := by
  have hnewhead := hnew head List.mem_cons_self
  have hnewlt := hbound new List.mem_cons_self
  have hheadlt := hbound head (List.mem_cons_of_mem new List.mem_cons_self)
  have hnext := h.nodeNext_eq
  cases xs with
  | nil =>
    rw [listAdd, hnext]
    exact links_listAddBetween m hnewhead hnewhead (Or.inl rfl) hnewlt hheadlt hheadlt
  | cons x rest =>
    have hx := hnew x (List.mem_cons_of_mem head List.mem_cons_self)
    obtain ⟨hhead, hrest⟩ := List.pairwise_cons.mp hnodes
    have hheadx := hhead x List.mem_cons_self
    have hxlt : x < 2 ^ 64 := hbound x (by simp)
    rw [listAdd, hnext]
    obtain ⟨hfirst, hsecond⟩ :=
      links_listAddBetween m hnewhead hx (Or.inr hheadx) hnewlt hheadlt hxlt
    refine ⟨hfirst, hsecond, Linked.congr (fun y hy => ?_) (fun y hy => ?_) h.2⟩
    · -- the links forward from the old nodes
      refine nodeNext_listAddBetween m (hnew y (List.mem_cons_of_mem head hy)) (hhead y hy) ?_
      rcases List.mem_cons.mp hy with rfl | hy
      · exact Or.inl rfl
      · exact Or.inr ((List.pairwise_cons.mp hrest).1 y hy)
    · -- the links back to the nodes past the first one
      rcases List.mem_append.mp hy with hy | hy
      · have hmem : y ∈ x :: rest := List.mem_cons_of_mem x hy
        exact nodePrev_listAddBetween m (hnew y (List.mem_cons_of_mem head hmem))
          (Or.inr (hhead y hmem)) ((List.pairwise_cons.mp hrest).1 y hy)
      · rw [List.mem_singleton.mp hy]
        exact nodePrev_listAddBetween m hnewhead (Or.inl rfl) hheadx.symm

end Lists
