import Ustack.Driver
import Ustack.Runs

/-!
# Runs of a descriptor ring

A ring under any interleaving of the driver's calls with the NIC, which sets DD bits
in any order. Two logs go with it: the packets given to descriptors, and the packets
taken back.

Of the calls, a receive ring sees the first two and a transmit ring the last three; the
ring is in order under all of them. What carries it is the DD bit: a bit is set only
between head and tail, and every loop clears the bits it goes over, so an empty ring,
whose reclaim loop does look at a descriptor, finds none set.

A descriptor done during a call is done before the call as far as the call can see: a
loop looks at each descriptor once, and the NIC has no descriptor the loop went over.
-/

/-- A ring, and the packets that went through it. -/
structure RingRun where
  /-- The ring. -/
  ring : DescRing
  /-- The packets given to descriptors so far, in order. -/
  entered : List ℕ
  /-- The packets taken back so far, in order. -/
  left : List ℕ
  /-- The process exited, or dereferenced a buffer that is not there. -/
  exited : Bool

/-- What happens next at a ring. -/
inductive RingLabel
  /-- `ring_alloc_rx_buffers`, from a pool of packets. -/
  | alloc (pool : List ℕ)
  /-- `ring_recv`, by adapter `id`. -/
  | recv (id : UInt8) (packet : ℕ → Packet)
  /-- `packet_pool_put` to the pool of the ring. -/
  | put (pkt : ℕ)
  /-- `ring_send`. -/
  | send
  /-- `ring_reclaim_tx_buffers`, to a list of packets. -/
  | reclaim (head : List ℕ)
  /-- The NIC is done with a descriptor. -/
  | nic (i : ℕ) (len : UInt16)

namespace DescRing

/-- The NIC sets the DD bit of a descriptor, and writes a length to it. -/
def complete (r : DescRing) (i : ℕ) (len : UInt16) : DescRing :=
  { r with dd := Function.update r.dd i true, length := Function.update r.length i len }

end DescRing

namespace RingRun

/-- The process exits. -/
def exit (s : RingRun) : RingRun := { s with exited := true }

/-- What a call does to a ring and its logs. -/
def step (s : RingRun) : RingLabel → RingRun
  | .alloc pool =>
    match ringAllocRxBuffers s.ring ⟨pool.length, pool⟩ with
    | none => s.exit
    | some (ring, pp) => { s with
        ring := ring
        entered := s.entered ++ pool.take (pool.length - pp.list.length) }
  | .recv id packet =>
    match ringRecv id s.ring packet with
    | none => s.exit
    | some (ring, _) => { s with
        ring := ring
        left := s.left ++ ring.pool.list.drop s.ring.pool.list.length }
  | .put pkt => { s with ring := s.ring.setPool (packetPoolPut s.ring.pool pkt) }
  | .send =>
    match ringSend s.ring with
    | none => s.exit
    | some ring => { s with
        ring := ring
        entered := s.entered
          ++ s.ring.pool.list.take (s.ring.pool.list.length - ring.pool.list.length) }
  | .reclaim head =>
    match ringReclaimTxBuffers s.ring head with
    | none => s.exit
    | some (ring, head') => { s with
        ring := ring
        left := s.left ++ head'.drop head.length }
  | .nic i len => { s with ring := s.ring.complete i len }

end RingRun

/-- **A ring of `size` descriptors under any interleaving.** The NIC is done only with
descriptors it has. -/
def ringSystem (size : ℕ) : System RingRun RingLabel where
  init s := ∃ length, s = ⟨ringCreate size length, [], [], false⟩
  step s l t := s.exited = false ∧ (∀ i len, l = .nic i len → i ∈ s.ring.window) ∧ t = s.step l

/-- **What holds of a ring in every run.** -/
structure RingSafe (size : ℕ) (s : RingRun) : Prop where
  /-- No missing buffer is met. -/
  exited : s.exited = false
  /-- The ring keeps its size. -/
  desc_num : s.ring.desc_num = size
  /-- The head is in the ring. -/
  head_lt : s.ring.head < s.ring.desc_num
  /-- The tail is in the ring. -/
  tail_lt : s.ring.tail < s.ring.desc_num
  /-- The descriptors with a packet are those from head to tail. -/
  buffer : ∀ i, (s.ring.buffer i).isSome = true ↔ i ∈ s.ring.window
  /-- One descriptor is left over. -/
  in_use : s.ring.window.length ≤ s.ring.desc_num - 1
  /-- Packets leave in the order they entered, each once. -/
  fifo : s.entered = s.left ++ s.ring.held

/-- **The invariant of a ring and its logs.** -/
structure RingRun.Inv (size : ℕ) (s : RingRun) : Prop where
  /-- The process goes on. -/
  exited : s.exited = false
  /-- The ring keeps its size. -/
  desc_num : s.ring.desc_num = size
  /-- The ring is in order. -/
  ok : s.ring.Ok
  /-- The pool counts its packets. -/
  pool : s.ring.pool.Counted
  /-- What entered left, or is there. -/
  fifo : s.entered = s.left ++ s.ring.held

namespace RingRun

variable {size : ℕ} {s : RingRun}

theorem inv_create (hs : 0 < size) (length : ℕ → UInt16) :
    Inv size ⟨ringCreate size length, [], [], false⟩ where
  exited := rfl
  desc_num := rfl
  ok := DescRing.ok_create hs length
  pool := PacketPool.counted_init
  fifo := (DescRing.held_create size length).symm

theorem Inv.alloc (h : s.Inv size) (pool : List ℕ) : (s.step (.alloc pool)).Inv size := by
  obtain ⟨ring, pp, taken, hcall, hok, -, hnum, hpool, hlist, hheld⟩ :=
    ringAllocRxBuffers_spec h.ok (show PacketPool.Counted ⟨pool.length, pool⟩ from rfl)
  have hlist' : pool = taken ++ pp.list := hlist
  have hlen : pool.length - pp.list.length = taken.length := by simp [hlist']
  simp only [step, hcall]
  refine ⟨h.exited, hnum.trans h.desc_num, hok, hpool ▸ h.pool, ?_⟩
  show s.entered ++ pool.take (pool.length - pp.list.length) = s.left ++ ring.held
  rw [hlen, hlist', List.take_left, h.fifo, hheld, List.append_assoc]

theorem Inv.recv (h : s.Inv size) (id : UInt8) (packet : ℕ → Packet) :
    (s.step (.recv id packet)).Inv size := by
  obtain ⟨ring, packet', got, hcall, hok, hcount, hnum, hlist, hheld, -⟩ :=
    ringRecv_spec id packet h.ok h.pool
  simp only [step, hcall]
  refine ⟨h.exited, hnum.trans h.desc_num, hok, hcount, ?_⟩
  show s.entered = s.left ++ ring.pool.list.drop s.ring.pool.list.length ++ ring.held
  rw [hlist, List.drop_left, h.fifo, hheld, List.append_assoc]

theorem Inv.put (h : s.Inv size) (pkt : ℕ) : (s.step (.put pkt)).Inv size :=
  ⟨h.exited, h.desc_num, h.ok.setPool _, h.pool.put pkt, h.fifo⟩

theorem Inv.send (h : s.Inv size) : (s.step .send).Inv size := by
  obtain ⟨ring, taken, hcall, hok, hcount, hnum, hlist, hheld⟩ := ringSend_spec h.ok h.pool
  have hlen : s.ring.pool.list.length - ring.pool.list.length = taken.length := by
    simp [hlist]
  simp only [step, hcall]
  refine ⟨h.exited, hnum.trans h.desc_num, hok, hcount, ?_⟩
  show s.entered ++ s.ring.pool.list.take (s.ring.pool.list.length - ring.pool.list.length)
    = s.left ++ ring.held
  rw [hlen, hlist, List.take_left, h.fifo, hheld, List.append_assoc]

theorem Inv.reclaim (h : s.Inv size) (head : List ℕ) :
    (s.step (.reclaim head)).Inv size := by
  obtain ⟨ring, got, hcall, hok, hnum, hpool, hheld⟩ := ringReclaimTxBuffers_spec head h.ok
  simp only [step, hcall]
  refine ⟨h.exited, hnum.trans h.desc_num, hok, hpool ▸ h.pool, ?_⟩
  show s.entered = s.left ++ (head ++ got).drop head.length ++ ring.held
  rw [List.drop_left, h.fifo, hheld, List.append_assoc]

theorem Inv.nic (h : s.Inv size) {i : ℕ} (hi : i ∈ s.ring.window) (len : UInt16) :
    (s.step (.nic i len)).Inv size :=
  ⟨h.exited, h.desc_num, h.ok.complete hi _, h.pool, h.fifo⟩

theorem inv_of_reachable (hs : 0 < size) (h : (ringSystem size).Reachable s) :
    s.Inv size := by
  refine System.invariant (P := fun s => s.Inv size) (fun s hi => ?_)
    (fun s l t hinv hst => ?_) h
  · obtain ⟨length, rfl⟩ := hi
    exact inv_create hs length
  · obtain ⟨-, hnic, rfl⟩ := hst
    cases l with
    | alloc pool => exact hinv.alloc pool
    | recv id packet => exact hinv.recv id packet
    | put pkt => exact hinv.put pkt
    | send => exact hinv.send
    | reclaim head => exact hinv.reclaim head
    | nic i len => exact hinv.nic (hnic i len rfl) len

end RingRun

/-- **A descriptor ring never loses, duplicates or misses a packet**, whatever the
calls and the order in which the NIC is done. -/
theorem ringSystem_safe {size : ℕ} (hs : 2 ≤ size) {s : RingRun}
    (h : (ringSystem size).Reachable s) : RingSafe size s := by
  have hinv := RingRun.inv_of_reachable (Nat.zero_lt_of_lt hs) h
  refine ⟨hinv.exited, hinv.desc_num, hinv.ok.head_lt, hinv.ok.tail_lt, hinv.ok.buffer, ?_,
    hinv.fifo⟩
  rw [DescRing.window, length_cyclic]
  exact Nat.le_sub_one_of_lt (cyclicDist_lt (Nat.zero_lt_of_lt hinv.ok.head_lt) _ _)

/-- A ring of four descriptors offered four packets: it takes three, and the first is
received. -/
def oneReceived : RingRun :=
  (((⟨ringCreate 4 (fun _ => 0), [], [], false⟩ : RingRun).step (.alloc [7, 9, 11, 13])).step
    (.nic 0 60)).step (.recv 0 (fun _ => Packet.received 0 0 []))

theorem reachable_oneReceived : (ringSystem 4).Reachable oneReceived := by
  have hstart : (ringSystem 4).Reachable ⟨ringCreate 4 (fun _ => 0), [], [], false⟩ :=
    System.Reachable.of_init ⟨fun _ => 0, rfl⟩
  have hfull := hstart.step (l := .alloc [7, 9, 11, 13]) ⟨rfl, by simp, rfl⟩
  have hdone := hfull.step (l := .nic 0 60) ⟨by decide, fun i len he => by
    obtain ⟨rfl, rfl⟩ := RingLabel.nic.inj he
    decide, rfl⟩
  exact hdone.step (l := .recv 0 (fun _ => Packet.received 0 0 [])) ⟨by decide, by simp, rfl⟩

theorem ringSystem_safe_oneReceived : RingSafe 4 oneReceived :=
  ringSystem_safe (by decide) reachable_oneReceived

example : oneReceived.entered = [7, 9, 11] ∧ oneReceived.left = [7]
    ∧ oneReceived.ring.held = [9, 11] := by decide

/-! ## What is reclaimed -/

namespace DescRing

/-- The NIC is done with the first `m` descriptors it has, and not with the next one. -/
structure DoneFirst (r : DescRing) (m : ℕ) : Prop where
  /-- It has so many. -/
  le : m ≤ r.window.length
  /-- It is done with them. -/
  done : ∀ k < m, r.dd ((r.head + k) % r.desc_num) = true
  /-- It is not done with the next one. -/
  next : m < r.window.length → r.dd ((r.head + m) % r.desc_num) = false

/-- **A reclaim returns the first `m` packets**, and empties a ring that is done. -/
def Reclaims (r : DescRing) (m : ℕ) : Prop :=
  ∀ head : List ℕ, ∃ r', ringReclaimTxBuffers r head = some (r', head ++ r.held.take m)
    ∧ r'.head = (r.head + m) % r.desc_num
    ∧ (m = r.window.length → r'.head = r'.tail ∧ ∀ i, r'.buffer i = none)

variable {r : DescRing} {i k : ℕ}

theorem length_window (r : DescRing) :
    r.window.length = cyclicDist r.desc_num r.head r.tail := length_cyclic _ _ _

theorem Ok.length_held (h : r.Ok) : r.held.length = r.window.length :=
  List.filterMap_length_eq_length.mpr (fun k hk => (h.buffer k).mpr hk)

/-- A ring whose head is its tail is empty. -/
theorem Ok.buffer_eq_none (h : r.Ok) (he : r.head = r.tail) (k : ℕ) : r.buffer k = none := by
  have hnil : r.window = [] := by
    rw [window, he, cyclicDist, Nat.add_sub_cancel_left, Nat.mod_self, cyclic_zero]
  rw [← Option.not_isSome_iff_eq_none, h.buffer, hnil]
  exact List.not_mem_nil

/-- A descriptor of the window is before the tail. -/
theorem head_add_ne_tail (h : r.Ok) (hk : k < r.window.length) :
    (r.head + k) % r.desc_num ≠ r.tail := fun he => by
  refine tail_notMem_window h ?_
  rw [length_window] at hk
  exact mem_cyclic.mpr ⟨k, hk, he⟩

/-- The tail is where the window ends. -/
theorem head_add_length (h : r.Ok) : (r.head + r.window.length) % r.desc_num = r.tail := by
  rw [length_window]
  exact add_cyclicDist h.head_lt h.tail_lt

/-- **The loop takes back what is done until it is a descriptor short of the tail**, or meets
one that is not done. -/
theorem ringLoop_reclaim (hok : (r.setHead i).Ok)
    (hdone : ∀ j < k, r.dd ((i + j) % r.desc_num) = true
      ∧ (i + j + 1) % r.desc_num ≠ r.tail)
    (hstop : (i + k + 1) % r.desc_num = r.tail ∨ r.dd ((i + k) % r.desc_num) = false)
    (hk : k < r.desc_num) {fuel : ℕ} (hfuel : k < fuel) (l : List ℕ) :
    ∃ r', ringLoop r.desc_num (fun i => (i + 1) % r.desc_num != r.tail) ringReclaimTxBuffer
        fuel i (r, l)
        = some ((i + k) % r.desc_num, r', l ++ (r.setHead i).held.take k)
      ∧ (r'.setHead ((i + k) % r.desc_num)).Ok ∧ r'.tail = r.tail := by
  have hi : i % r.desc_num = i := Nat.mod_eq_of_lt hok.head_lt
  induction k generalizing r i fuel l with
  | zero =>
    obtain _ | fuel := fuel
    · exact absurd hfuel (Nat.not_lt_zero _)
    refine ⟨r, ?_, ?_, rfl⟩
    · simp only [Nat.add_zero, hi] at hstop ⊢
      rw [ringLoop, List.take_zero, List.append_nil]
      obtain hguard | hdd := hstop
      · rw [hguard, bne_self_eq_false]
        rfl
      · simp [ringReclaimTxBuffer, hdd]
    · rw [Nat.add_zero, hi]
      exact hok
  | succ k ih =>
    obtain _ | fuel := fuel
    · exact absurd hfuel (Nat.not_lt_zero _)
    obtain ⟨hdd, hguard⟩ := hdone 0 (Nat.succ_pos k)
    rw [Nat.add_zero] at hdd hguard
    rw [hi] at hdd
    obtain ⟨pkt, hbuf, hok', hheld⟩ := hok.pop hdd
    have hbody : ringReclaimTxBuffer i (r, l) = .next (r.clear i, l ++ [pkt]) := by
      simp [ringReclaimTxBuffer, hdd, show r.buffer i = some pkt from hbuf]
    have hshift : ∀ j, ((i + 1) % r.desc_num + j) % r.desc_num = (i + (j + 1)) % r.desc_num :=
      fun j => by rw [Nat.mod_add_mod, Nat.add_assoc, Nat.add_comm 1 j]
    have hclear : ∀ j, j + 1 < r.desc_num →
        (r.clear i).dd (((i + 1) % r.desc_num + j) % r.desc_num)
          = r.dd ((i + (j + 1)) % r.desc_num) := fun j hj => by
      rw [hshift]
      refine Function.update_of_ne (fun he => ?_) _ _
      have hinj := add_mod_inj hj (Nat.zero_lt_of_lt hk) (he.trans hi.symm)
      exact absurd hinj (Nat.succ_ne_zero j)
    have hround : ∀ j, ((i + 1) % r.desc_num + j + 1) % r.desc_num
        = (i + (j + 1) + 1) % r.desc_num := fun j => hshift (j + 1)
    obtain ⟨r', hloop, hlast, htail⟩ := ih (r := r.clear i) (i := (i + 1) % r.desc_num)
      (l := l ++ [pkt]) hok' (fun j hj => by
        obtain ⟨hdd', hguard'⟩ := hdone (j + 1) (Nat.succ_lt_succ hj)
        rw [show (r.clear i).desc_num = r.desc_num from rfl, hround,
          hclear j (Nat.lt_of_lt_of_le (Nat.succ_lt_succ hj) hk.le)]
        exact ⟨hdd', hguard'⟩)
      (by
        rw [show (r.clear i).desc_num = r.desc_num from rfl, hround, hclear k hk]
        exact hstop)
      (Nat.lt_of_succ_lt hk) (Nat.lt_of_succ_lt_succ hfuel) (Nat.mod_mod _ _)
    rw [show (r.clear i).desc_num = r.desc_num from rfl, hshift] at hloop hlast
    refine ⟨r', ?_, hlast, htail⟩
    have hheld' : (r.setHead i).held = pkt :: ((r.clear i).setHead ((i + 1) % r.desc_num)).held :=
      hheld
    rw [ringLoop, if_pos (by simpa using hguard), hbody, hheld', List.take_succ_cons,
      List.append_cons l pkt (List.take k _)]
    exact hloop

/-- **What a call takes back**: what is done, but not the last packet. -/
theorem ringReclaimTxBuffers_eq (h : r.Ok) (hdone : ∀ j < k, r.dd ((r.head + j) % r.desc_num) = true)
    (hk : k < r.window.length ∨ k = 0)
    (hstop : (r.head + k + 1) % r.desc_num = r.tail ∨ r.dd ((r.head + k) % r.desc_num) = false)
    (l : List ℕ) :
    ∃ r', ringReclaimTxBuffers r l = some (r', l ++ r.held.take k) ∧ r'.Ok
      ∧ r'.head = (r.head + k) % r.desc_num ∧ r'.tail = r.tail := by
  have hlen : r.window.length < r.desc_num := by
    rw [length_window]
    exact cyclicDist_lt (Nat.zero_lt_of_lt h.head_lt) _ _
  have hk' : k < r.desc_num := hk.elim hlen.trans' (fun he => he ▸ Nat.zero_lt_of_lt h.head_lt)
  obtain ⟨r', hloop, hok, htail⟩ := ringLoop_reclaim (r := r) (i := r.head) h (fun j hj => by
    refine ⟨hdone j hj, ?_⟩
    rw [Nat.add_assoc]
    refine head_add_ne_tail h ?_
    obtain hk | rfl := hk
    · exact Nat.lt_of_le_of_lt hj hk
    · exact absurd hj (Nat.not_lt_zero j)) hstop hk' hk' l
  exact ⟨r'.setHead _, by rw [ringReclaimTxBuffers, hloop]; rfl, hok, rfl, htail⟩

end DescRing

/-- **A reclaim returns every completed packet exactly if one in flight is not completed**, or
none is. -/
theorem ringSystem_reclaims_iff {size : ℕ} (hs : 0 < size) {s : RingRun}
    (h : (ringSystem size).Reachable s) {m : ℕ} (hm : s.ring.DoneFirst m) :
    s.ring.Reclaims m ↔ m < s.ring.window.length ∨ m = 0 := by
  have hok := (RingRun.inv_of_reachable hs h).ok
  constructor
  · intro hall
    by_contra hno
    rw [not_or, not_lt] at hno
    obtain ⟨hle, hne⟩ := hno
    have hm' : m = s.ring.window.length := le_antisymm hm.le hle
    obtain ⟨n, rfl⟩ := Nat.exists_eq_succ_of_ne_zero hne
    -- the loop stops at the last packet
    have hlast : (s.ring.head + n + 1) % s.ring.desc_num = s.ring.tail := by
      rw [Nat.add_assoc, ← Nat.succ_eq_add_one, hm']
      exact DescRing.head_add_length hok
    obtain ⟨r', hcall, -⟩ := DescRing.ringReclaimTxBuffers_eq hok
      (fun j hj => hm.done j (Nat.lt_succ_of_lt hj)) (Or.inl (Nat.lt_of_succ_le hm.le))
      (Or.inl hlast) []
    obtain ⟨r'', hcall', -⟩ := hall []
    rw [hcall] at hcall'
    have hheld : s.ring.held.length = n + 1 := hok.length_held.trans hm'.symm
    have htake := congrArg List.length (Prod.mk.inj (Option.some.inj hcall')).2
    simp [hheld] at htake
  · intro hk l
    have hstop : (s.ring.head + m + 1) % s.ring.desc_num = s.ring.tail
        ∨ s.ring.dd ((s.ring.head + m) % s.ring.desc_num) = false := by
      by_cases hlt : m < s.ring.window.length
      · exact Or.inr (hm.next hlt)
      · -- an empty ring has no descriptor that is done
        obtain rfl := hk.resolve_left hlt
        have hnil : s.ring.window = [] := List.length_eq_zero_iff.mp (Nat.eq_zero_of_not_pos hlt)
        refine Or.inr (Bool.eq_false_of_not_eq_true (fun hdd => ?_))
        have hmem := hok.dd _ hdd
        rw [hnil] at hmem
        exact List.not_mem_nil hmem
    obtain ⟨r', hcall, hok', hhead, htail⟩ := DescRing.ringReclaimTxBuffers_eq hok hm.done hk hstop l
    refine ⟨r', hcall, hhead, fun hall => ?_⟩
    have hempty : r'.head = r'.tail := by
      rw [hhead, htail, hall]
      exact DescRing.head_add_length hok
    exact ⟨hempty, hok'.buffer_eq_none hempty⟩

/-- A transmit ring of four descriptors with one packet in its pool. -/
def onePut : RingRun :=
  (⟨ringCreate 4 (fun _ => 0), [], [], false⟩ : RingRun).step (.put 7)

theorem reachable_onePut : (ringSystem 4).Reachable onePut :=
  (System.Reachable.of_init ⟨fun _ => 0, rfl⟩ : (ringSystem 4).Reachable
    ⟨ringCreate 4 (fun _ => 0), [], [], false⟩).step (l := .put 7) ⟨rfl, by simp, rfl⟩

/-- What is sent, and done with its first descriptor. -/
theorem reachable_sent {s : RingRun} (h : (ringSystem 4).Reachable s) (he : s.exited = false)
    (he' : (s.step .send).exited = false) (hmem : 0 ∈ (s.step .send).ring.window) :
    (ringSystem 4).Reachable ((s.step .send).step (.nic 0 60)) :=
  (h.step (l := .send) ⟨he, by simp, rfl⟩).step (l := .nic 0 60) ⟨he', fun i len hl => by
    obtain ⟨rfl, rfl⟩ := RingLabel.nic.inj hl
    exact hmem, rfl⟩

/-- **One packet that was sent is not reclaimed**: it is the last one in flight. -/
theorem one_sent_not_reclaimed :
    (ringSystem 4).Reachable ((onePut.step .send).step (.nic 0 60))
      ∧ ((onePut.step .send).step (.nic 0 60)).ring.DoneFirst 1
      ∧ ¬ ((onePut.step .send).step (.nic 0 60)).ring.Reclaims 1 := by
  refine ⟨reachable_sent reachable_onePut rfl (by decide) (by decide),
    ⟨by decide, by decide, by decide⟩, fun hall => ?_⟩
  obtain ⟨r', hcall, -⟩ := hall []
  have hlist : (some [] : Option (List ℕ)) = some [7] := congrArg (Option.map Prod.snd) hcall
  exact absurd hlist (by decide)

/-- Of two packets sent, the first is reclaimed. -/
theorem ringSystem_reclaims_iff_first :
    (((onePut.step (.put 9)).step .send).step (.nic 0 60)).ring.Reclaims 1 := by
  have hput : (ringSystem 4).Reachable (onePut.step (.put 9)) :=
    reachable_onePut.step (l := .put 9) ⟨rfl, by simp, rfl⟩
  exact (ringSystem_reclaims_iff (by decide)
    (reachable_sent hput rfl (by decide) (by decide))
    (m := 1) ⟨by decide, by decide, by decide⟩).mpr (Or.inl (by decide))
