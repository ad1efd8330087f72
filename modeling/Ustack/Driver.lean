import Ustack.Cyclic
import Ustack.Packet

/-!
# Packet pools and descriptor rings

The pools of `include/packet.h` and the rings of `src/driver.c`. A ring is a row of
descriptors shared with the NIC: those from `head` to `tail` are the NIC's, and it
sets the DD bit of one when it is done with it. The driver adds descriptors at the
tail and takes them back at the head, so a ring is a queue of packets whose slots are
the window between the two (`DescRing.held`), and its four loops are pushes at one end and
pops at the other.

The writes that fill a descriptor lie over the word of the DD bit, which they clear.

Packets are named by their physical addresses. An index into the array of adapters has
eight bits.
-/

/-! ## Packet pools -/

/-- `struct packet_pool`. -/
structure PacketPool where
  /-- The number of packets. -/
  num : ℕ
  /-- The packets. -/
  list : List ℕ

/-- `packet_pool_init`. -/
def packetPoolInit : PacketPool := ⟨0, []⟩

/-- `packet_pool_get`. -/
def packetPoolGet (pp : PacketPool) : Option ℕ × PacketPool :=
  if 0 < pp.num then (pp.list.head?, ⟨pp.num - 1, pp.list.tail⟩) else (none, pp)

/-- `packet_pool_put`. -/
def packetPoolPut (pp : PacketPool) (pkt : ℕ) : PacketPool :=
  ⟨pp.num + 1, pp.list ++ [pkt]⟩

/-- `packet_pool_get_all`: the packets, at the end of a list. -/
def packetPoolGetAll (pp : PacketPool) (head : List ℕ) : List ℕ × PacketPool :=
  if 0 < pp.num then (head ++ pp.list, ⟨0, []⟩) else (head, pp)

/-- `packet_pool_put_all`. -/
def packetPoolPutAll (pp : PacketPool) (head : List ℕ) : PacketPool :=
  head.foldl packetPoolPut pp

/-- **A pool counts its packets.** -/
def PacketPool.Counted (pp : PacketPool) : Prop := pp.num = pp.list.length

namespace PacketPool

variable {pp : PacketPool}

theorem counted_init : packetPoolInit.Counted := rfl

/-- A counted pool gives out its first packet, if it has one. -/
theorem Counted.get (h : pp.Counted) :
    (packetPoolGet pp).2.Counted
      ∧ pp.list = (packetPoolGet pp).1.toList ++ (packetPoolGet pp).2.list := by
  unfold Counted at h
  unfold packetPoolGet Counted
  cases hl : pp.list with
  | nil => simp [h, hl]
  | cons x rest => simp [h, hl]

theorem Counted.put (h : pp.Counted) (pkt : ℕ) : (packetPoolPut pp pkt).Counted := by
  show pp.num + 1 = (pp.list ++ [pkt]).length
  simp [show pp.num = pp.list.length from h]

theorem Counted.getAll (h : pp.Counted) (head : List ℕ) :
    packetPoolGetAll pp head = (head ++ pp.list, ⟨0, []⟩) := by
  unfold packetPoolGetAll
  split
  · rfl
  · rename_i hnum
    have hzero : pp.num = 0 := by omega
    have hnil : pp.list = [] := List.length_eq_zero_iff.mp (h.symm.trans hzero)
    rw [hnil, List.append_nil, ← hzero, ← hnil]

end PacketPool

/-! ## Rings -/

/-- `DESC_NUM`. -/
def descNum : ℕ := 256

/-- `struct ring`, with its descriptors. -/
structure DescRing where
  /-- The number of descriptors. -/
  desc_num : ℕ
  /-- The first descriptor the NIC has. -/
  head : ℕ
  /-- The descriptor past the last one it has. -/
  tail : ℕ
  /-- The packets received, or the packets to send. -/
  pool : PacketPool
  /-- The packet of a descriptor. -/
  buffer : ℕ → Option ℕ
  /-- The DD bit of a descriptor. -/
  dd : ℕ → Bool
  /-- The length the NIC wrote to a receive descriptor. -/
  length : ℕ → UInt16

/-- `ring_create`, over descriptors that are not done. -/
def ringCreate (desc_num : ℕ) (length : ℕ → UInt16) : DescRing where
  desc_num := desc_num
  head := 0
  tail := 0
  pool := packetPoolInit
  buffer := fun _ => none
  dd := fun _ => false
  length := length

namespace DescRing

/-- Give a packet to the descriptor at `i`. -/
def fill (r : DescRing) (i pkt : ℕ) : DescRing :=
  { r with buffer := Function.update r.buffer i (some pkt)
           dd := Function.update r.dd i false }

/-- Take the packet back from the descriptor at `i`. -/
def clear (r : DescRing) (i : ℕ) : DescRing :=
  { r with buffer := Function.update r.buffer i none
           dd := Function.update r.dd i false }

/-- The ring with its tail moved. -/
def setTail (r : DescRing) (i : ℕ) : DescRing := { r with tail := i }

/-- The ring with its head moved. -/
def setHead (r : DescRing) (i : ℕ) : DescRing := { r with head := i }

/-- The ring with its pool replaced. -/
def setPool (r : DescRing) (pool : PacketPool) : DescRing := { r with pool := pool }

end DescRing

/-- How the body of a loop over descriptors ends. -/
inductive LoopBody (σ : Type*)
  /-- With `break`. -/
  | stop
  /-- The next descriptor is up. -/
  | next (s : σ)
  /-- The process exits. -/
  | exit

/-- The loops of `src/driver.c`: from descriptor `i` on, round the ring, until
`guard` fails or the body breaks. The answer is the descriptor reached, or none if the
process exits. No loop gets past its guard in a whole turn (`ringLoop_ends`). -/
def ringLoop {σ : Type*} (size : ℕ) (guard : ℕ → Bool) (body : ℕ → σ → LoopBody σ) :
    ℕ → ℕ → σ → Option (ℕ × σ)
  | 0, i, s => some (i, s)
  | fuel + 1, i, s =>
    if guard i then
      match body i s with
      | .stop => some (i, s)
      | .next s => ringLoop size guard body fuel ((i + 1) % size) s
      | .exit => none
    else some (i, s)

/-- `ring_alloc_rx_buffer`. -/
def ringAllocRxBuffer (i : ℕ) (s : DescRing × PacketPool) : LoopBody (DescRing × PacketPool) :=
  match packetPoolGet s.2 with
  | (none, _) => .stop
  | (some pkt, pp) => .next (s.1.fill i pkt, pp)

/-- `ring_alloc_rx_buffers`. A loop that adds nothing ends at the tail. -/
def ringAllocRxBuffers (r : DescRing) (pp : PacketPool) : Option (DescRing × PacketPool) :=
  (ringLoop r.desc_num (fun i => (i + 1) % r.desc_num != r.head) ringAllocRxBuffer
    r.desc_num r.tail (r, pp)).map (fun (i, r, pp) => (r.setTail i, pp))

/-- What `ring_recv_rx_buffer` assigns of a packet. -/
def Packet.setReceived (pkt : Packet) (len : UInt16) (adapter_idx : UInt8) : Packet :=
  { pkt with len := len, adapter_idx := adapter_idx }

/-- `ring_recv_rx_buffer`, on the ring of adapter `id`. A done descriptor without a
packet is dereferenced; a descriptor is done only while it has one. -/
def ringRecvRxBuffer (id : UInt8) (i : ℕ) (s : DescRing × (ℕ → Packet)) :
    LoopBody (DescRing × (ℕ → Packet)) :=
  if s.1.dd i then
    match s.1.buffer i with
    | none => .exit
    | some pkt =>
      let r := s.1.clear i
      .next (r.setPool (packetPoolPut r.pool pkt),
        Function.update s.2 pkt ((s.2 pkt).setReceived (s.1.length i) id))
  else .stop

/-- `ring_recv`. -/
def ringRecv (id : UInt8) (r : DescRing) (packet : ℕ → Packet) :
    Option (DescRing × (ℕ → Packet)) :=
  (ringLoop r.desc_num (fun i => i != r.tail) (ringRecvRxBuffer id) r.desc_num r.head
    (r, packet)).map (fun (i, r, packet) => (r.setHead i, packet))

/-- `ring_send_tx_buffer`. -/
def ringSendTxBuffer (i : ℕ) (r : DescRing) : LoopBody DescRing :=
  match packetPoolGet r.pool with
  | (none, _) => .stop
  | (some pkt, pool) => .next ((r.setPool pool).fill i pkt)

/-- `ring_send`. -/
def ringSend (r : DescRing) : Option DescRing :=
  (ringLoop r.desc_num (fun i => (i + 1) % r.desc_num != r.head) ringSendTxBuffer
    r.desc_num r.tail r).map (fun (i, r) => r.setTail i)

/-- `ring_reclaim_tx_buffer`. -/
def ringReclaimTxBuffer (i : ℕ) (s : DescRing × List ℕ) : LoopBody (DescRing × List ℕ) :=
  if s.1.dd i then
    match s.1.buffer i with
    | none => .exit
    | some pkt => .next (s.1.clear i, s.2 ++ [pkt])
  else .stop

/-- `ring_reclaim_tx_buffers`. The loop stops one descriptor short of the tail. -/
def ringReclaimTxBuffers (r : DescRing) (head : List ℕ) : Option (DescRing × List ℕ) :=
  (ringLoop r.desc_num (fun i => (i + 1) % r.desc_num != r.tail) ringReclaimTxBuffer
    r.desc_num r.head (r, head)).map (fun (i, r, head) => (r.setHead i, head))

/-- `struct adapter`: the rings of a process on one NIC. -/
structure Adapter where
  /-- The index of the adapter. -/
  id : UInt8
  /-- The transmit ring. -/
  tx_ring : DescRing
  /-- The receive ring. -/
  rx_ring : DescRing

/-! ## The packets in a ring -/

namespace DescRing

/-- The descriptors the NIC has. -/
def window (r : DescRing) : List ℕ :=
  cyclic r.desc_num r.head (cyclicDist r.desc_num r.head r.tail)

/-- The packets the NIC has. -/
def held (r : DescRing) : List ℕ := r.window.filterMap r.buffer

/-- The packets in the slots of a ring. -/
def slots (r : DescRing) : List ℕ := (List.range r.desc_num).filterMap r.buffer

/-- **A ring is in order**: the descriptors with a packet are the NIC's, and so are
those that are done. -/
structure Ok (r : DescRing) : Prop where
  /-- The head is in the ring. -/
  head_lt : r.head < r.desc_num
  /-- The tail is in the ring. -/
  tail_lt : r.tail < r.desc_num
  /-- The NIC's descriptors have a packet. -/
  buffer : ∀ k, (r.buffer k).isSome = true ↔ k ∈ r.window
  /-- Only the NIC's descriptors are done. -/
  dd : ∀ k, r.dd k = true → k ∈ r.window

variable {r : DescRing}

theorem ok_create {desc_num : ℕ} (h : 0 < desc_num) (length : ℕ → UInt16) :
    (ringCreate desc_num length).Ok := by
  have hw : (ringCreate desc_num length).window = [] := by
    show cyclic desc_num 0 ((0 + desc_num - 0) % desc_num) = []
    simp
  refine ⟨h, h, fun k => ?_, fun k hk => ?_⟩
  · rw [hw]
    simp [ringCreate]
  · exact absurd hk (by simp [ringCreate])

theorem held_create (desc_num : ℕ) (length : ℕ → UInt16) :
    (ringCreate desc_num length).held = [] := by
  simp [held, ringCreate]

theorem nodup_window (h : r.Ok) : r.window.Nodup :=
  nodup_cyclic (cyclicDist_lt (Nat.zero_lt_of_lt h.head_lt) _ _).le

theorem tail_notMem_window (h : r.Ok) : r.tail ∉ r.window := by
  have hn : (r.head + cyclicDist r.desc_num r.head r.tail) % r.desc_num ∉ r.window :=
    notMem_cyclic (cyclicDist_lt (Nat.zero_lt_of_lt h.head_lt) r.head r.tail)
  rwa [add_cyclicDist h.head_lt h.tail_lt] at hn

/-- **The slots hold what the NIC has.** -/
theorem Ok.slots_perm (h : r.Ok) : r.slots.Perm r.held := by
  have hslots : r.slots
      = ((List.range r.desc_num).filter (fun k => (r.buffer k).isSome)).filterMap r.buffer := by
    rw [List.filterMap_filter]
    refine List.filterMap_congr (fun k _ => ?_)
    cases r.buffer k <;> rfl
  rw [hslots]
  refine List.Perm.filterMap _ ((List.perm_ext_iff_of_nodup
    (List.nodup_range.filter _) (nodup_window h)).mpr (fun k => ?_))
  rw [List.mem_filter, List.mem_range, h.buffer]
  exact and_iff_right_of_imp (cyclic_lt (Nat.zero_lt_of_lt h.head_lt))

/-- What the buffers hold in slots that are not assigned. -/
theorem filterMap_update {slots : List ℕ} {buffer : ℕ → Option ℕ} {i : ℕ}
    (h : i ∉ slots) (x : Option ℕ) :
    slots.filterMap (Function.update buffer i x) = slots.filterMap buffer := by
  refine List.filterMap_congr (fun j hj => ?_)
  exact Function.update_of_ne (ne_of_mem_of_not_mem hj h) _ _

/-- **A packet is added at the tail.** -/
theorem Ok.push (h : r.Ok) (hroom : (r.tail + 1) % r.desc_num ≠ r.head) (pkt : ℕ) :
    ((r.fill r.tail pkt).setTail ((r.tail + 1) % r.desc_num)).Ok
      ∧ ((r.fill r.tail pkt).setTail ((r.tail + 1) % r.desc_num)).held
        = r.held ++ [pkt] := by
  have hw : ((r.fill r.tail pkt).setTail ((r.tail + 1) % r.desc_num)).window
      = r.window ++ [r.tail] := cyclic_cyclicDist_succ h.head_lt h.tail_lt hroom
  have hno := tail_notMem_window h
  refine ⟨⟨h.head_lt, Nat.mod_lt _ (Nat.zero_lt_of_lt h.head_lt), fun k => ?_,
    fun k hk => ?_⟩, ?_⟩
  · rw [hw, List.mem_append, List.mem_singleton]
    show (Function.update r.buffer r.tail (some pkt) k).isSome = true ↔ _
    by_cases hk : k = r.tail
    · simp [hk]
    · rw [Function.update_of_ne hk, h.buffer]
      simp [hk]
  · rw [hw, List.mem_append, List.mem_singleton]
    have hk' : Function.update r.dd r.tail false k = true := hk
    by_cases he : k = r.tail
    · exact Or.inr he
    · rw [Function.update_of_ne he] at hk'
      exact Or.inl (h.dd k hk')
  · rw [held, hw, List.filterMap_append]
    show r.window.filterMap (Function.update r.buffer r.tail (some pkt))
      ++ [r.tail].filterMap (Function.update r.buffer r.tail (some pkt)) = _
    rw [filterMap_update hno]
    simp [held]

/-- **A packet is taken at the head**, once its descriptor is done. -/
theorem Ok.pop (h : r.Ok) (hdd : r.dd r.head = true) :
    ∃ pkt, r.buffer r.head = some pkt
      ∧ ((r.clear r.head).setHead ((r.head + 1) % r.desc_num)).Ok
      ∧ r.held = pkt :: ((r.clear r.head).setHead ((r.head + 1) % r.desc_num)).held := by
  have hmem := h.dd _ hdd
  obtain ⟨pkt, hpkt⟩ := Option.isSome_iff_exists.mp ((h.buffer _).mpr hmem)
  have hne : r.head ≠ r.tail := fun he => tail_notMem_window h (he ▸ hmem)
  have hw : r.window
      = r.head :: ((r.clear r.head).setHead ((r.head + 1) % r.desc_num)).window :=
    cyclic_cyclicDist_cons h.head_lt h.tail_lt hne
  have hnodup := nodup_window h
  rw [hw, List.nodup_cons] at hnodup
  refine ⟨pkt, hpkt, ⟨Nat.mod_lt _ (Nat.zero_lt_of_lt h.head_lt), h.tail_lt, fun k => ?_,
    fun k hk => ?_⟩, ?_⟩
  · show (Function.update r.buffer r.head none k).isSome = true ↔ _
    by_cases hk : k = r.head
    · rw [hk, Function.update_self]
      exact ⟨fun hno => absurd hno (by simp), fun hin => absurd hin hnodup.1⟩
    · rw [Function.update_of_ne hk, h.buffer, hw, List.mem_cons]
      exact or_iff_right hk
  · have hk' : Function.update r.dd r.head false k = true := hk
    by_cases he : k = r.head
    · rw [he, Function.update_self] at hk'
      exact absurd hk' Bool.false_ne_true
    · rw [Function.update_of_ne he] at hk'
      have hin := h.dd k hk'
      rw [hw, List.mem_cons] at hin
      exact hin.resolve_left he
  · rw [held, hw, List.filterMap_cons_some hpkt]
    refine congrArg (pkt :: ·) ?_
    exact (filterMap_update hnodup.1 none).symm

/-- **The NIC completes a descriptor it has.** -/
theorem Ok.complete (h : r.Ok) {k : ℕ} (hk : k ∈ r.window) (length : ℕ → UInt16) :
    Ok { r with dd := Function.update r.dd k true, length := length } := by
  refine ⟨h.head_lt, h.tail_lt, h.buffer, fun j hj => ?_⟩
  show j ∈ r.window
  have hj' : Function.update r.dd k true j = true := hj
  by_cases he : j = k
  · exact he ▸ hk
  · rw [Function.update_of_ne he] at hj'
    exact h.dd j hj'

theorem Ok.setPool (h : r.Ok) (pool : PacketPool) : (r.setPool pool).Ok :=
  ⟨h.head_lt, h.tail_lt, h.buffer, h.dd⟩

end DescRing

/-! ## The loops -/

section Loop

variable {σ : Type*} {size : ℕ} {guard : ℕ → Bool} {body : ℕ → σ → LoopBody σ}

/-- **What every turn of a loop keeps, the loop keeps**, and it does not exit if no
turn does. -/
theorem ringLoop_invariant {P : ℕ → σ → Prop}
    (hnext : ∀ i s s', P i s → guard i = true → body i s = .next s' →
      P ((i + 1) % size) s')
    (hexit : ∀ i s, P i s → guard i = true → body i s ≠ .exit) (fuel : ℕ) {i : ℕ} {s : σ}
    (h : P i s) : ∃ i' s', ringLoop size guard body fuel i s = some (i', s') ∧ P i' s' := by
  induction fuel generalizing i s with
  | zero => exact ⟨i, s, rfl, h⟩
  | succ fuel ih =>
    unfold ringLoop
    split
    · rename_i hg
      split
      · exact ⟨i, s, rfl, h⟩
      · rename_i s' hs'
        exact ih (hnext i s s' h hg hs')
      · rename_i hs
        exact absurd hs (hexit i s h hg)
    · exact ⟨i, s, rfl, h⟩

/-- **A loop ends by itself** if its guard fails within its turns. -/
theorem ringLoop_stops {fuel d i i' : ℕ} {s s' : σ} (hd : d ≤ fuel)
    (hguard : guard ((i + d) % size) = false) (hi : i < size)
    (h : ringLoop size guard body fuel i s = some (i', s')) :
    guard i' = false ∨ body i' s' = .stop := by
  induction fuel generalizing i s d with
  | zero =>
    obtain ⟨rfl, rfl⟩ := Prod.mk.inj (Option.some.inj h)
    rw [Nat.le_zero.mp hd, Nat.add_zero, Nat.mod_eq_of_lt hi] at hguard
    exact Or.inl hguard
  | succ fuel ih =>
    unfold ringLoop at h
    split at h
    · rename_i hg
      split at h
      · rename_i hs
        obtain ⟨rfl, rfl⟩ := Prod.mk.inj (Option.some.inj h)
        exact Or.inr hs
      · -- the guard does not fail here, so it fails further on
        obtain _ | d := d
        · rw [Nat.add_zero, Nat.mod_eq_of_lt hi, hg] at hguard
          exact absurd hguard (by simp)
        · refine ih (Nat.le_of_succ_le_succ hd) ?_ (Nat.mod_lt _ (Nat.zero_lt_of_lt hi)) h
          rw [Nat.mod_add_mod, Nat.add_assoc, Nat.add_comm 1 d]
          exact hguard
      · exact absurd h (by simp)
    · rename_i hg
      obtain ⟨rfl, rfl⟩ := Prod.mk.inj (Option.some.inj h)
      exact Or.inl (by simpa using hg)

/-- A whole turn is enough for a guard that fails at some descriptor. -/
theorem ringLoop_ends {i i' j : ℕ} {s s' : σ} (hi : i < size) (hj : j < size)
    (hguard : guard j = false) (h : ringLoop size guard body size i s = some (i', s')) :
    guard i' = false ∨ body i' s' = .stop := by
  refine ringLoop_stops (cyclicDist_lt (Nat.zero_lt_of_lt hi) i j).le ?_ hi h
  rw [add_cyclicDist hi hj]
  exact hguard

end Loop

/-! ## What a loop does to a ring

The four loops work on the ring with its tail, or its head, at the descriptor they
have reached; they store it when they are done. -/

section Ends

variable {σ : Type*} {ring : σ → DescRing} {list : σ → List ℕ} {I : σ → Prop} {r : DescRing}
  {s t t' : σ} {guard : ℕ → Bool} {body : ℕ → σ → LoopBody σ} {i : ℕ}

variable (ring list I r s) in
/-- What a loop that fills descriptors has done on reaching descriptor `i`. -/
structure Filled (i : ℕ) (t : σ) : Prop where
  /-- The rest of the state. -/
  inv : I t
  /-- The ring keeps its size. -/
  desc_num : (ring t).desc_num = r.desc_num
  /-- The ring keeps its head. -/
  head : (ring t).head = r.head
  /-- The ring is in order with its tail here. -/
  ok : ((ring t).setTail i).Ok
  /-- Packets went from the front of the list to the ring. -/
  moved : ∃ taken, list s = taken ++ list t ∧ ((ring t).setTail i).held = r.held ++ taken

variable (ring list I r s) in
/-- What a loop that takes packets back has done on reaching descriptor `i`. -/
structure Drained (i : ℕ) (t : σ) : Prop where
  /-- The rest of the state. -/
  inv : I t
  /-- The ring keeps its size. -/
  desc_num : (ring t).desc_num = r.desc_num
  /-- The ring is in order with its head here. -/
  ok : ((ring t).setHead i).Ok
  /-- Packets went from the ring to the end of the list. -/
  moved : ∃ got, list t = list s ++ got ∧ r.held = got ++ ((ring t).setHead i).held

/-- One more descriptor is filled. -/
theorem Filled.next (h : Filled ring list I r s i t) (hI : I t') {pkt : ℕ}
    {pool : PacketPool} (hroom : (i + 1) % r.desc_num ≠ r.head)
    (hlist : list t = pkt :: list t')
    (hring : ring t' = ((ring t).setPool pool).fill i pkt) :
    Filled ring list I r s ((i + 1) % r.desc_num) t' := by
  obtain ⟨taken, htaken, hheld⟩ := h.moved
  have hroom' : (i + 1) % ((ring t).setTail i).desc_num ≠ ((ring t).setTail i).head := by
    show (i + 1) % (ring t).desc_num ≠ (ring t).head
    rw [h.desc_num, h.head]
    exact hroom
  obtain ⟨hok, hpush⟩ := (h.ok.setPool pool).push hroom' pkt
  have hring' : (ring t').setTail ((i + 1) % r.desc_num)
      = ((((ring t).setTail i).setPool pool).fill i pkt).setTail
        ((i + 1) % ((ring t).setTail i).desc_num) := by
    rw [hring, ← h.desc_num]
    rfl
  refine ⟨hI, ?_, ?_, hring' ▸ hok, taken ++ [pkt], ?_, ?_⟩
  · rw [hring]
    exact h.desc_num
  · rw [hring]
    exact h.head
  · rw [htaken, hlist, List.append_assoc]
    rfl
  · rw [hring', ← List.append_assoc, ← hheld]
    exact hpush

/-- One more descriptor is taken back. -/
theorem Drained.next (h : Drained ring list I r s i t) (hI : I t') {pkt : ℕ}
    {pool : PacketPool} (hdd : (ring t).dd i = true) (hbuf : (ring t).buffer i = some pkt)
    (hlist : list t' = list t ++ [pkt])
    (hring : ring t' = ((ring t).clear i).setPool pool) :
    Drained ring list I r s ((i + 1) % r.desc_num) t' := by
  obtain ⟨got, hgot, hheld⟩ := h.moved
  obtain ⟨pkt', hbuf', hok, hpop⟩ := h.ok.pop hdd
  obtain rfl : pkt = pkt' := Option.some.inj (hbuf.symm.trans hbuf')
  have hring' : (ring t').setHead ((i + 1) % r.desc_num)
      = ((((ring t).setHead i).clear i).setHead
        ((i + 1) % ((ring t).setHead i).desc_num)).setPool pool := by
    rw [hring, ← h.desc_num]
    rfl
  refine ⟨hI, ?_, hring' ▸ hok.setPool pool, got ++ [pkt], ?_, ?_⟩
  · rw [hring]
    exact h.desc_num
  · rw [hlist, hgot, List.append_assoc]
  · rw [hheld, hpop, hring', List.append_assoc]
    rfl

variable (ring list I guard body)

/-- **A loop that fills descriptors while there is room** takes packets off the front
of a list and puts them on the ring, in this order. -/
theorem ringLoop_push (hroom : ∀ i, guard i = true → (i + 1) % r.desc_num ≠ r.head)
    (hnext : ∀ i t t', I t → body i t = .next t' → I t' ∧ ∃ pkt pool,
      list t = pkt :: list t' ∧ ring t' = ((ring t).setPool pool).fill i pkt)
    (hexit : ∀ i t, body i t ≠ .exit) (hr : r.Ok) (hI : I s) (hs : ring s = r) (fuel : ℕ) :
    ∃ i' t, ringLoop r.desc_num guard body fuel r.tail s = some (i', t)
      ∧ Filled ring list I r s i' t := by
  subst hs
  refine ringLoop_invariant (fun i t t' ht hg hb => ?_) (fun i t _ _ => hexit i t) fuel
    ⟨hI, rfl, rfl, hr, [], rfl, (List.append_nil _).symm⟩
  obtain ⟨hI', pkt, pool, hlist, hring⟩ := hnext i t t' ht.inv hb
  exact ht.next hI' (hroom i hg) hlist hring

/-- **A loop that takes back done descriptors** puts their packets at the end of a
list, in the order of the ring. -/
theorem ringLoop_pop
    (hnext : ∀ i t t', I t → body i t = .next t' → I t' ∧ ∃ pkt pool,
      (ring t).dd i = true ∧ (ring t).buffer i = some pkt ∧ list t' = list t ++ [pkt]
        ∧ ring t' = ((ring t).clear i).setPool pool)
    (hexit : ∀ i t, body i t = .exit → (ring t).dd i = true ∧ (ring t).buffer i = none)
    (hr : r.Ok) (hI : I s) (hs : ring s = r) (fuel : ℕ) :
    ∃ i' t, ringLoop r.desc_num guard body fuel r.head s = some (i', t)
      ∧ Drained ring list I r s i' t := by
  subst hs
  refine ringLoop_invariant (fun i t t' ht _ hb => ?_) (fun i t ht _ hb => ?_) fuel
    ⟨hI, rfl, hr, [], (List.append_nil _).symm, rfl⟩
  · obtain ⟨hI', pkt, pool, hdd, hbuf, hlist, hring⟩ := hnext i t t' ht.inv hb
    exact ht.next hI' hdd hbuf hlist hring
  · obtain ⟨hdd, hnone⟩ := hexit i t hb
    obtain ⟨pkt, hbuf, -⟩ := ht.ok.pop hdd
    exact absurd (hnone.symm.trans hbuf) (by simp)

end Ends

section Specs

variable {r : DescRing} {pp : PacketPool}

/-- **Filling a receive ring moves packets from the front of the pool to the ring.** -/
theorem ringAllocRxBuffers_spec (h : r.Ok) (hp : pp.Counted) :
    ∃ r' pp' taken, ringAllocRxBuffers r pp = some (r', pp') ∧ r'.Ok ∧ pp'.Counted
      ∧ r'.desc_num = r.desc_num ∧ r'.pool = r.pool
      ∧ pp.list = taken ++ pp'.list ∧ r'.held = r.held ++ taken := by
  obtain ⟨i, ⟨r', pp'⟩, hloop, hfill⟩ := ringLoop_push Prod.fst (fun t => t.2.list)
    (fun t => t.2.Counted ∧ t.1.pool = r.pool) (fun i => (i + 1) % r.desc_num != r.head)
    ringAllocRxBuffer (s := (r, pp)) (fun i hg => by simpa using hg)
    (fun i t t' ht hb => by
      obtain ⟨hcount, hget⟩ := ht.1.get
      unfold ringAllocRxBuffer at hb
      split at hb
      · exact absurd hb (by simp)
      · rename_i pkt pool hpkt
        obtain rfl := LoopBody.next.inj hb
        rw [hpkt] at hcount hget
        exact ⟨⟨hcount, ht.2⟩, pkt, t.1.pool, hget, rfl⟩)
    (fun i t => by
      unfold ringAllocRxBuffer
      split <;> simp)
    h ⟨hp, rfl⟩ rfl r.desc_num
  obtain ⟨taken, hlist, hheld⟩ := hfill.moved
  exact ⟨r'.setTail i, pp', taken, by rw [ringAllocRxBuffers, hloop]; rfl, hfill.ok,
    hfill.inv.1, hfill.desc_num, hfill.inv.2, hlist, hheld⟩

/-- **Receiving moves packets from the ring to the end of its pool**, and assigns
nothing but those packets. -/
theorem ringRecv_spec (id : UInt8) (packet : ℕ → Packet) (h : r.Ok) (hp : r.pool.Counted) :
    ∃ r' packet' got, ringRecv id r packet = some (r', packet') ∧ r'.Ok
      ∧ r'.pool.Counted ∧ r'.desc_num = r.desc_num
      ∧ r'.pool.list = r.pool.list ++ got ∧ r.held = got ++ r'.held
      ∧ ∀ p, packet' p = packet p
        ∨ p ∈ got ∧ ∃ len, packet' p = (packet p).setReceived len id := by
  obtain ⟨i, ⟨r', packet'⟩, hloop, hdrain⟩ := ringLoop_pop Prod.fst
    (fun t => t.1.pool.list)
    (fun t : DescRing × (ℕ → Packet) => t.1.pool.Counted
      ∧ ∃ got, t.1.pool.list = r.pool.list ++ got
      ∧ ∀ p, t.2 p = packet p ∨ p ∈ got ∧ ∃ len, t.2 p = (packet p).setReceived len id)
    (fun i => i != r.tail) (ringRecvRxBuffer id) (s := (r, packet))
    (fun i t t' ht hb => by
      obtain ⟨hcount, got, hgot, hmem⟩ := ht
      unfold ringRecvRxBuffer at hb
      split at hb
      · rename_i hdd
        split at hb
        · exact absurd hb (by simp)
        · rename_i pkt hbuf
          obtain rfl := LoopBody.next.inj hb
          refine ⟨⟨hcount.put pkt, got ++ [pkt], ?_, fun p => ?_⟩, pkt,
            packetPoolPut t.1.pool pkt, hdd, hbuf, rfl, rfl⟩
          · show t.1.pool.list ++ [pkt] = _
            rw [hgot, List.append_assoc]
          · show Function.update t.2 pkt ((t.2 pkt).setReceived (t.1.length i) id) p = packet p
              ∨ p ∈ got ++ [pkt] ∧ ∃ len, Function.update t.2 pkt
                ((t.2 pkt).setReceived (t.1.length i) id) p = (packet p).setReceived len id
            by_cases he : p = pkt
            · subst he
              rw [Function.update_self]
              refine Or.inr ⟨by simp, t.1.length i, ?_⟩
              obtain he | ⟨-, len, he⟩ := hmem p
              · rw [he]
              · rw [he]
                rfl
            · rw [Function.update_of_ne he]
              exact (hmem p).imp_right (And.imp_left (List.mem_append_left _))
      · exact absurd hb (by simp))
    (fun i t hb => by
      unfold ringRecvRxBuffer at hb
      split at hb
      · rename_i hdd
        split at hb
        · rename_i hbuf
          exact ⟨hdd, hbuf⟩
        · exact absurd hb (by simp)
      · exact absurd hb (by simp))
    h ⟨hp, [], (List.append_nil _).symm, fun _ => Or.inl rfl⟩ rfl r.desc_num
  obtain ⟨got, hlist, hheld⟩ := hdrain.moved
  obtain ⟨hcount, got', hgot', hmem⟩ := hdrain.inv
  obtain rfl : got' = got := List.append_cancel_left (hgot'.symm.trans hlist)
  exact ⟨r'.setHead i, packet', got', by rw [ringRecv, hloop]; rfl, hdrain.ok, hcount,
    hdrain.desc_num, hlist, hheld, hmem⟩

/-- **Sending moves packets from the front of the pool of a ring to the ring.** -/
theorem ringSend_spec (h : r.Ok) (hp : r.pool.Counted) :
    ∃ r' taken, ringSend r = some r' ∧ r'.Ok ∧ r'.pool.Counted ∧ r'.desc_num = r.desc_num
      ∧ r.pool.list = taken ++ r'.pool.list ∧ r'.held = r.held ++ taken := by
  obtain ⟨i, r', hloop, hfill⟩ := ringLoop_push id (fun t => t.pool.list)
    (fun t => t.pool.Counted) (fun i => (i + 1) % r.desc_num != r.head)
    ringSendTxBuffer (fun i hg => by simpa using hg)
    (fun i t t' ht hb => by
      obtain ⟨hcount, hget⟩ := ht.get
      unfold ringSendTxBuffer at hb
      split at hb
      · exact absurd hb (by simp)
      · rename_i pkt pool hpkt
        obtain rfl := LoopBody.next.inj hb
        rw [hpkt] at hcount hget
        exact ⟨hcount, pkt, pool, hget, rfl⟩)
    (fun i t => by
      unfold ringSendTxBuffer
      split <;> simp)
    h hp rfl r.desc_num
  obtain ⟨taken, hlist, hheld⟩ := hfill.moved
  exact ⟨r'.setTail i, taken, by rw [ringSend, hloop]; rfl, hfill.ok, hfill.inv,
    hfill.desc_num, hlist, hheld⟩

/-- **Reclaiming moves packets from the ring to the end of a list.** -/
theorem ringReclaimTxBuffers_spec (head : List ℕ) (h : r.Ok) :
    ∃ r' got, ringReclaimTxBuffers r head = some (r', head ++ got) ∧ r'.Ok
      ∧ r'.desc_num = r.desc_num ∧ r'.pool = r.pool ∧ r.held = got ++ r'.held := by
  obtain ⟨i, ⟨r', head'⟩, hloop, hdrain⟩ := ringLoop_pop Prod.fst Prod.snd
    (fun t => t.1.pool = r.pool) (fun i => (i + 1) % r.desc_num != r.tail)
    ringReclaimTxBuffer (s := (r, head))
    (fun i t t' ht hb => by
      unfold ringReclaimTxBuffer at hb
      split at hb
      · rename_i hdd
        split at hb
        · exact absurd hb (by simp)
        · rename_i pkt hbuf
          obtain rfl := LoopBody.next.inj hb
          exact ⟨ht, pkt, t.1.pool, hdd, hbuf, rfl, rfl⟩
      · exact absurd hb (by simp))
    (fun i t hb => by
      unfold ringReclaimTxBuffer at hb
      split at hb
      · rename_i hdd
        split at hb
        · rename_i hbuf
          exact ⟨hdd, hbuf⟩
        · exact absurd hb (by simp)
      · exact absurd hb (by simp))
    h rfl rfl r.desc_num
  obtain ⟨got, hlist, hheld⟩ := hdrain.moved
  refine ⟨r'.setHead i, got, ?_, hdrain.ok, hdrain.desc_num, hdrain.inv, hheld⟩
  rw [ringReclaimTxBuffers, hloop]
  show some (r'.setHead i, head') = _
  rw [show head' = head ++ got from hlist]

/-! ## Where the loops end

A loop of the model ends where the loop of the source does. -/

/-- The descriptor before another one. -/
theorem exists_succ_mod {size j : ℕ} (hj : j < size) : ∃ i < size, (i + 1) % size = j := by
  obtain _ | j := j
  · exact ⟨size - 1, Nat.sub_one_lt_of_lt hj, by rw [Nat.sub_one_add_one_eq_of_pos hj, Nat.mod_self]⟩
  · exact ⟨j, Nat.lt_of_succ_lt hj, Nat.mod_eq_of_lt hj⟩

/-- **A receive ring is filled until it is full or the pool is empty.** -/
theorem ringAllocRxBuffers_ends (h : r.Ok) {r' : DescRing}
    {pp' : PacketPool} (hcall : ringAllocRxBuffers r pp = some (r', pp')) :
    (r'.tail + 1) % r.desc_num = r.head ∨ (packetPoolGet pp').1 = none := by
  obtain ⟨⟨i, r1, pp1⟩, hloop, heq⟩ := Option.map_eq_some_iff.mp hcall
  obtain ⟨rfl, rfl⟩ := Prod.mk.inj heq
  obtain ⟨j, hj, hhead⟩ := exists_succ_mod h.head_lt
  refine (ringLoop_ends h.tail_lt hj (by simp [hhead]) hloop).imp (fun hg => ?_) (fun hb => ?_)
  · show (i + 1) % r.desc_num = r.head
    simpa using hg
  · unfold ringAllocRxBuffer at hb
    split at hb
    · rename_i hnone
      exact congrArg Prod.fst hnone
    · exact absurd hb (by simp)

/-- **Everything done is received**: up to the tail, or to a descriptor that is not
done. -/
theorem ringRecv_ends (h : r.Ok) {id : UInt8} {packet packet' : ℕ → Packet} {r' : DescRing}
    (hcall : ringRecv id r packet = some (r', packet')) :
    r'.head = r.tail ∨ r'.dd r'.head = false := by
  obtain ⟨⟨i, r1, packet1⟩, hloop, heq⟩ := Option.map_eq_some_iff.mp hcall
  obtain ⟨rfl, rfl⟩ := Prod.mk.inj heq
  refine (ringLoop_ends h.head_lt h.tail_lt (by simp) hloop).imp (fun hg => ?_) (fun hb => ?_)
  · show i = r.tail
    simpa using hg
  · unfold ringRecvRxBuffer at hb
    split at hb
    · split at hb <;> exact absurd hb (by simp)
    · rename_i hdd
      show r1.dd i = false
      simpa using hdd

/-- **A transmit ring is filled until it is full or its pool is empty.** -/
theorem ringSend_ends (h : r.Ok) {r' : DescRing} (hcall : ringSend r = some r') :
    (r'.tail + 1) % r.desc_num = r.head ∨ (packetPoolGet r'.pool).1 = none := by
  obtain ⟨⟨i, r1⟩, hloop, rfl⟩ := Option.map_eq_some_iff.mp hcall
  obtain ⟨j, hj, hhead⟩ := exists_succ_mod h.head_lt
  refine (ringLoop_ends h.tail_lt hj (by simp [hhead]) hloop).imp (fun hg => ?_) (fun hb => ?_)
  · show (i + 1) % r.desc_num = r.head
    simpa using hg
  · unfold ringSendTxBuffer at hb
    split at hb
    · rename_i hnone
      exact congrArg Prod.fst hnone
    · exact absurd hb (by simp)

/-- **Everything done but the last is reclaimed**: up to the descriptor before the tail,
or to one that is not done. -/
theorem ringReclaimTxBuffers_ends (h : r.Ok) {head head' : List ℕ} {r' : DescRing}
    (hcall : ringReclaimTxBuffers r head = some (r', head')) :
    (r'.head + 1) % r.desc_num = r.tail ∨ r'.dd r'.head = false := by
  obtain ⟨⟨i, r1, head1⟩, hloop, heq⟩ := Option.map_eq_some_iff.mp hcall
  obtain ⟨rfl, rfl⟩ := Prod.mk.inj heq
  obtain ⟨j, hj, htail⟩ := exists_succ_mod h.tail_lt
  refine (ringLoop_ends h.head_lt hj (by simp [htail]) hloop).imp (fun hg => ?_) (fun hb => ?_)
  · show (i + 1) % r.desc_num = r.tail
    simpa using hg
  · unfold ringReclaimTxBuffer at hb
    split at hb
    · split at hb <;> exact absurd hb (by simp)
    · rename_i hdd
      show r1.dd i = false
      simpa using hdd

end Specs
