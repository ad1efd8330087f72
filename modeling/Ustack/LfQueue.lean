import Ustack.Cyclic
import Ustack.Runs

/-!
# The queue between two processes

`src/lf_queue.c`: a ring in shared memory with one producer and one consumer, and
beside it the producer's list of packets not yet in the ring. Neither side locks.
The producer reads the consumer's `head` once and fills slots up to it; the
consumer reads the producer's `tail` once and reads slots up to it; each then
publishes its own index by a compare-and-swap, although nobody else writes it.

The model steps through both functions one shared access at a time, in any
interleaving, so each side works from an index that may be out of date by the
time it is used. `LfqLink.Inv` is what makes that harmless: counted without
wrapping, a stale head is only behind the head and a stale tail only behind the
tail.

One slot is always left empty, so equal indices mean an empty ring; a ring of
size one carries nothing.
-/

variable {α : Type*}

/-- `struct lf_queue`. -/
structure LfQueue (α : Type*) where
  /-- The number of slots. -/
  size : ℕ
  /-- Packets sent and not yet in the ring. -/
  list : List α
  /-- The next slot to read. -/
  head : ℕ
  /-- The next slot to write. -/
  tail : ℕ
  /-- The slots. -/
  desc : ℕ → α

/-- `lfq_queue_create_init`, over whatever the slots hold. -/
def lfqQueueCreateInit (desc_num : ℕ) (desc : ℕ → α) : LfQueue α where
  size := desc_num
  list := []
  head := 0
  tail := 0
  desc := desc

/-- `lfq_send`: append a packet to the list. -/
def lfqSend (queue : LfQueue α) (pkt : α) : LfQueue α :=
  { queue with list := queue.list ++ [pkt] }

/-- Where the producer is in `__put_packet_to_queue`, with its locals. -/
inductive PutPc
  /-- Not in the function. -/
  | idle
  /-- The shared head is read. -/
  | tail (head : ℕ)
  /-- At the top of the loop body. -/
  | body (head tail i i_next count : ℕ)
  /-- Before the compare-and-swap of the tail. -/
  | cas (tail i : ℕ)
  /-- The compare-and-swap failed and the process exits. -/
  | failed
deriving DecidableEq

/-- Where the consumer is in `__get_packet_from_queue`, with its locals. -/
inductive GetPc
  /-- Not in the function. -/
  | idle
  /-- The head is read. -/
  | tail (head : ℕ)
  /-- At the loop test. -/
  | loop (head tail i count : ℕ)
  /-- Before the compare-and-swap of the head. -/
  | cas (head i : ℕ)
  /-- The compare-and-swap failed and the process exits. -/
  | failed
deriving DecidableEq

/-- A queue, the two processes at its ends, and what went through it. -/
structure LfqLink (α : Type*) where
  /-- The shared queue. -/
  queue : LfQueue α
  /-- The producer. -/
  put : PutPc
  /-- The consumer. -/
  get : GetPc
  /-- What the consumer appended to its list so far. -/
  lhead : List α
  /-- The part of it whose slots it has given back. -/
  received : List α
  /-- Everything sent so far. -/
  sent : List α

namespace LfqLink

/-- One step of `__put_packet_to_queue`. -/
def putStep (s : LfqLink α) : LfqLink α :=
  match s.put with
  | .idle => { s with put := .tail s.queue.head }
  | .tail head =>
    let tail := s.queue.tail
    let i := tail
    let i_next := (i + 1) % s.queue.size
    if i_next = head then { s with put := .idle }
    else { s with put := .body head tail i i_next 0 }
  | .body head tail i i_next count =>
    match s.queue.list with
    | [] => { s with put := if 0 < count then .cas tail i else .idle }
    | pkt :: rest =>
      let queue := { s.queue with
        list := rest
        desc := Function.update s.queue.desc i pkt }
      let count := count + 1
      let i := i_next
      let i_next := wrapNext s.queue.size i_next
      { s with
        queue := queue
        put := if i_next ≠ head then .body head tail i i_next count else .cas tail i }
  | .cas tail i =>
    if s.queue.tail = tail then
      { s with queue := { s.queue with tail := i }, put := .idle }
    else { s with put := .failed }
  | .failed => s

/-- One step of `__get_packet_from_queue`. -/
def getStep (s : LfqLink α) : LfqLink α :=
  match s.get with
  | .idle => { s with get := .tail s.queue.head }
  | .tail head => { s with get := .loop head s.queue.tail head 0 }
  | .loop head tail i count =>
    if i ≠ tail then
      { s with
        lhead := s.lhead ++ [s.queue.desc i]
        get := .loop head tail (wrapNext s.queue.size i) (count + 1) }
    else { s with get := if 0 < count then .cas head i else .idle }
  | .cas head i =>
    if s.queue.head = head then
      { s with queue := { s.queue with head := i }, get := .idle, received := s.lhead }
    else { s with get := .failed }
  | .failed => s

end LfqLink

/-- What happens next at a queue. -/
inductive LfqLabel (α : Type*)
  /-- The producer, not flushing, sends a packet. -/
  | send (pkt : α)
  /-- The producer takes a step of a flush. -/
  | put
  /-- The consumer takes a step of a receive. -/
  | get

/-- **A queue under any interleaving of its two processes.** -/
def lfqSystem (α : Type*) (size : ℕ) : System (LfqLink α) (LfqLabel α) where
  init s := ∃ desc, s = ⟨lfqQueueCreateInit size desc, .idle, .idle, [], [], []⟩
  step s l t :=
    match l with
    | .send pkt => s.put = .idle
        ∧ t = { s with queue := lfqSend s.queue pkt, sent := s.sent ++ [pkt] }
    | .put => t = s.putStep
    | .get => t = s.getStep

namespace LfqLink

/-- The slots from `head` to `tail`. -/
def published (s : LfqLink α) : List α :=
  (cyclic s.queue.size s.queue.head
    (cyclicDist s.queue.size s.queue.head s.queue.tail)).map s.queue.desc

/-- The slots written and not yet published. -/
def written (s : LfqLink α) : List α :=
  match s.put with
  | .body _ tail i _ _ | .cas tail i =>
    (cyclic s.queue.size tail (cyclicDist s.queue.size tail i)).map s.queue.desc
  | _ => []

/-- The published slots the consumer has not read. -/
def unread (s : LfqLink α) : List α :=
  match s.get with
  | .loop _ _ i _ | .cas _ i =>
    (cyclic s.queue.size i (cyclicDist s.queue.size i s.queue.tail)).map s.queue.desc
  | _ => s.published

/-- The slots the consumer has read or is to read before it publishes its
head. -/
def reading (s : LfqLink α) : List ℕ :=
  match s.get with
  | .loop head tail _ _ => cyclic s.queue.size head (cyclicDist s.queue.size head tail)
  | .cas head i => cyclic s.queue.size head (cyclicDist s.queue.size head i)
  | _ => []

/-! ## The invariant

Positions are counted without wrapping: `H` packets have been received, `T`
published and `W` written. -/

/-- The producer's locals, over a head `Hs` that may be out of date. -/
def PutOk (size H T W : ℕ) : PutPc → Prop
  | .idle => W = T
  | .tail head => W = T ∧ ∃ Hs ≤ H, head = Hs % size ∧ T < Hs + size
  | .body head tail i i_next count =>
    tail = T % size ∧ i = W % size ∧ i_next = (W + 1) % size ∧ T + count = W
      ∧ ∃ Hs ≤ H, head = Hs % size ∧ W + 1 < Hs + size
  | .cas tail i => tail = T % size ∧ i = W % size ∧ T < W
  | .failed => False

/-- The consumer's locals, over a tail `Ts` that may be out of date: it has read
the packets up to position `R`. -/
def GetOk (size H T R : ℕ) : GetPc → Prop
  | .idle => R = H
  | .tail head => R = H ∧ head = H % size
  | .loop head tail i count =>
    head = H % size ∧ i = R % size ∧ H + count = R
      ∧ ∃ Ts ≤ T, tail = Ts % size ∧ R ≤ Ts
  | .cas head i => head = H % size ∧ i = R % size ∧ H < R ∧ R ≤ T
  | .failed => False

/-- **The invariant of a queue.** -/
structure Inv (size : ℕ) (s : LfqLink α) (T W R : ℕ) : Prop where
  /-- The queue keeps its size. -/
  size_eq : s.queue.size = size
  /-- Received packets have been published. -/
  le_tail : s.received.length ≤ T
  /-- Published packets have been written. -/
  tail_le : T ≤ W
  /-- A slot is left empty. -/
  room : W < s.received.length + size
  /-- The head index. -/
  head_eq : s.queue.head = s.received.length % size
  /-- The tail index. -/
  tail_eq : s.queue.tail = T % size
  /-- What is received is what was sent first. -/
  received_eq : s.received = s.sent.take s.received.length
  /-- What is read is the first `R` of what was sent. -/
  lhead_eq : s.lhead = s.sent.take R
  /-- What is not written is still in the list. -/
  list_eq : s.queue.list = s.sent.drop W
  /-- No more is written than was sent. -/
  le_length : W ≤ s.sent.length
  /-- A written slot holds the packet of its position. -/
  desc_eq : ∀ k, s.received.length ≤ k → k < W →
    s.sent[k]? = some (s.queue.desc (k % size))
  /-- The producer. -/
  put_ok : PutOk size s.received.length T W s.put
  /-- The consumer. -/
  get_ok : GetOk size s.received.length T R s.get

end LfqLink

/-- The index past a position, unless it meets an index a turn behind. -/
theorem succ_lt_of_mod_ne {size W Hs : ℕ} (h : W < Hs + size)
    (hne : (W + 1) % size ≠ Hs % size) : W + 1 < Hs + size := by
  refine lt_of_le_of_ne h (fun he => hne ?_)
  rw [he, Nat.add_mod_right]

namespace LfqLink

variable {size T W R : ℕ} {s : LfqLink α}

theorem Inv.size_pos (h : s.Inv size T W R) : 0 < size := by
  have := h.le_tail
  have := h.tail_le
  have := h.room
  omega

theorem wrapNext_mod {size i : ℕ} (hs : 0 < size) :
    wrapNext size (i % size) = (i + 1) % size := by
  rw [wrapNext_eq_mod (Nat.mod_lt _ hs), Nat.mod_add_mod]

/-- Sending keeps the invariant. -/
theorem Inv.send (h : s.Inv size T W R) (pkt : α) :
    Inv size { s with queue := lfqSend s.queue pkt, sent := s.sent ++ [pkt] } T W R := by
  have hlen := h.le_length
  have hrecv := h.le_tail.trans (h.tail_le.trans hlen)
  have hR : R ≤ s.sent.length := by
    have hg := h.get_ok
    have hT := h.tail_le
    have hrt := h.le_tail
    cases hpc : s.get with
    | idle => rw [hpc] at hg; exact hg.le.trans hrecv
    | tail head => rw [hpc] at hg; exact hg.1.le.trans hrecv
    | loop head tail i count =>
      rw [hpc] at hg
      obtain ⟨-, -, -, Ts, hTs, -, hle⟩ := hg
      omega
    | cas head i => rw [hpc] at hg; obtain ⟨-, -, -, hle⟩ := hg; omega
    | failed => rw [hpc] at hg; exact absurd hg id
  refine { h with
    received_eq := ?_, lhead_eq := ?_, list_eq := ?_, le_length := ?_, desc_eq := ?_ }
  · exact h.received_eq.trans (List.take_append_of_le_length hrecv).symm
  · exact h.lhead_eq.trans (List.take_append_of_le_length hR).symm
  · show s.queue.list ++ [pkt] = (s.sent ++ [pkt]).drop W
    rw [h.list_eq, List.drop_append_of_le_length hlen]
  · show W ≤ (s.sent ++ [pkt]).length
    rw [List.length_append]
    omega
  · intro k hk hkW
    show (s.sent ++ [pkt])[k]? = _
    rw [List.getElem?_append_left (by omega)]
    exact h.desc_eq k hk hkW

/-- Writing the next slot. -/
theorem Inv.write (h : s.Inv size T W R) {pkt : α} {rest : List α}
    (hl : s.queue.list = pkt :: rest) (hroom : W + 1 < s.received.length + size)
    {put : PutPc} (hput : PutOk size s.received.length T (W + 1) put) :
    Inv size { s with
      queue := { s.queue with
        list := rest, desc := Function.update s.queue.desc (W % size) pkt }
      put := put } T (W + 1) R := by
  have hdrop : s.sent.drop W = pkt :: rest := h.list_eq.symm.trans hl
  have hget : s.sent[W]? = some pkt := by
    rw [← List.head?_drop, hdrop]
    rfl
  refine { h with
    tail_le := Nat.le_succ_of_le h.tail_le, room := hroom, list_eq := ?_,
    le_length := ?_, desc_eq := ?_, put_ok := hput }
  · show rest = s.sent.drop (W + 1)
    rw [← List.drop_drop, hdrop]
    rfl
  · obtain ⟨hlt, -⟩ := List.getElem?_eq_some_iff.mp hget
    exact hlt
  · intro k hk hkW
    show s.sent[k]? = some (Function.update s.queue.desc (W % size) pkt (k % size))
    rcases Nat.lt_succ_iff_lt_or_eq.mp hkW with hlt | rfl
    · -- the slot of an earlier position is another slot: all fit in one turn
      have hturn : W - k < size := by
        have hr := h.room
        have hk' : s.received.length ≤ k := hk
        omega
      have hne : k % size ≠ W % size := fun he =>
        absurd (eq_of_mod_eq hlt.le hturn he) (by omega)
      rw [Function.update_of_ne hne]
      exact h.desc_eq k hk hlt
    · rw [Function.update_self]
      exact hget

/-- **A step of the producer keeps the invariant.** -/
theorem Inv.putStep (h : s.Inv size T W R) : ∃ T' W', s.putStep.Inv size T' W' R := by
  have hs := h.size_pos
  have hok := h.put_ok
  cases hpc : s.put with
  | idle =>
    rw [hpc] at hok
    refine ⟨T, W, ?_⟩
    simp only [LfqLink.putStep, hpc]
    exact { h with
      put_ok := ⟨hok, s.received.length, le_rfl, h.head_eq, by
        have hr := h.room
        have hw : W = T := hok
        omega⟩ }
  | tail head =>
    rw [hpc] at hok
    obtain ⟨hW, Hs, hHs, rfl, hlt⟩ := hok
    refine ⟨T, W, ?_⟩
    simp only [LfqLink.putStep, hpc, h.size_eq, h.tail_eq, Nat.mod_add_mod]
    split
    · exact { h with put_ok := hW }
    · rename_i hne
      exact { h with
        put_ok := ⟨rfl, by rw [hW], by rw [hW], by omega, Hs, hHs, rfl, by
          rw [hW]; exact succ_lt_of_mod_ne hlt hne⟩ }
  | body head tail i i_next count =>
    rw [hpc] at hok
    obtain ⟨rfl, rfl, rfl, hcount, Hs, hHs, rfl, hlt⟩ := hok
    cases hl : s.queue.list with
    | nil =>
      refine ⟨T, W, ?_⟩
      simp only [LfqLink.putStep, hpc, hl]
      split
      · exact { h with put_ok := ⟨rfl, rfl, by omega⟩ }
      · exact { h with put_ok := by show W = T; omega }
    | cons pkt rest =>
      have hwrap : wrapNext s.queue.size ((W + 1) % size) = (W + 1 + 1) % size := by
        rw [h.size_eq, wrapNext_mod hs]
      refine ⟨T, W + 1, ?_⟩
      simp only [LfqLink.putStep, hpc, hl, hwrap]
      refine h.write hl (by omega) ?_
      split
      · rename_i hne
        exact ⟨rfl, rfl, rfl, by omega, Hs, hHs, rfl, succ_lt_of_mod_ne hlt hne⟩
      · exact ⟨rfl, rfl, by omega⟩
  | cas tail i =>
    rw [hpc] at hok
    obtain ⟨rfl, rfl, hlt⟩ := hok
    refine ⟨W, W, ?_⟩
    simp only [LfqLink.putStep, hpc, h.tail_eq, if_true]
    refine { h with
      le_tail := h.le_tail.trans h.tail_le, tail_le := le_rfl, tail_eq := rfl,
      put_ok := rfl, get_ok := ?_ }
    -- the consumer's stale tail is still behind the tail
    have hg := h.get_ok
    show GetOk size s.received.length W R s.get
    cases hget : s.get with
    | idle => rw [hget] at hg; exact hg
    | tail head => rw [hget] at hg; exact hg
    | loop head tail i count =>
      rw [hget] at hg
      obtain ⟨h1, h2, h3, Ts, hTs, h4, h5⟩ := hg
      exact ⟨h1, h2, h3, Ts, hTs.trans hlt.le, h4, h5⟩
    | cas head i =>
      rw [hget] at hg
      obtain ⟨h1, h2, h3, h4⟩ := hg
      exact ⟨h1, h2, h3, h4.trans hlt.le⟩
    | failed => rw [hget] at hg; exact hg
  | failed => rw [hpc] at hok; exact absurd hok id

/-- **A step of the consumer keeps the invariant.** -/
theorem Inv.getStep (h : s.Inv size T W R) : ∃ R', s.getStep.Inv size T W R' := by
  have hs := h.size_pos
  have hok := h.get_ok
  cases hpc : s.get with
  | idle =>
    rw [hpc] at hok
    refine ⟨R, ?_⟩
    simp only [LfqLink.getStep, hpc]
    exact { h with get_ok := ⟨hok, h.head_eq⟩ }
  | tail head =>
    rw [hpc] at hok
    obtain ⟨rfl, rfl⟩ := hok
    refine ⟨s.received.length, ?_⟩
    simp only [LfqLink.getStep, hpc]
    exact { h with get_ok := ⟨rfl, rfl, rfl, T, le_rfl, h.tail_eq, h.le_tail⟩ }
  | loop head tail i count =>
    rw [hpc] at hok
    obtain ⟨rfl, rfl, hcount, Ts, hTs, rfl, hle⟩ := hok
    simp only [LfqLink.getStep, hpc]
    split
    · rename_i hne
      have hlt : R < Ts := lt_of_le_of_ne hle (fun he => hne (by rw [he]))
      have hdesc := h.desc_eq R (by omega) (by have := h.tail_le; omega)
      have hcount' : s.received.length + (count + 1) = R + 1 := by omega
      refine ⟨R + 1, { h with
        lhead_eq := ?_
        get_ok := ⟨rfl, by rw [h.size_eq, wrapNext_mod hs], hcount', Ts, hTs, rfl, hlt⟩ }⟩
      show s.lhead ++ [s.queue.desc (R % size)] = s.sent.take (R + 1)
      rw [h.lhead_eq, List.take_add_one, hdesc]
      rfl
    · rename_i heq
      split
      · have hpos : s.received.length < R := by omega
        exact ⟨R, { h with get_ok := ⟨rfl, rfl, hpos, hle.trans hTs⟩ }⟩
      · exact ⟨R, { h with get_ok := by show R = s.received.length; omega }⟩
  | cas head i =>
    rw [hpc] at hok
    obtain ⟨rfl, rfl, hlt, hle⟩ := hok
    refine ⟨R, ?_⟩
    simp only [LfqLink.getStep, hpc, h.head_eq, if_true]
    have hRlen : R ≤ s.sent.length := hle.trans (h.tail_le.trans h.le_length)
    have hlen : s.lhead.length = R := by
      rw [h.lhead_eq, List.length_take]
      omega
    refine { h with
      le_tail := by rw [hlen]; exact hle, room := by rw [hlen]; have := h.room; omega,
      head_eq := by rw [hlen], received_eq := by rw [hlen]; exact h.lhead_eq,
      desc_eq := fun k hk => h.desc_eq k (by rw [hlen] at hk; omega),
      put_ok := ?_, get_ok := by rw [hlen]; exact rfl }
    -- the producer's stale head is still behind the head
    have hp := h.put_ok
    show PutOk size s.lhead.length T W s.put
    rw [hlen]
    cases hput : s.put with
    | idle => rw [hput] at hp; exact hp
    | tail head =>
      rw [hput] at hp
      obtain ⟨h1, Hs, hHs, h2, h3⟩ := hp
      exact ⟨h1, Hs, hHs.trans hlt.le, h2, h3⟩
    | body head tail i i_next count =>
      rw [hput] at hp
      obtain ⟨h1, h2, h3, h4, Hs, hHs, h5, h6⟩ := hp
      exact ⟨h1, h2, h3, h4, Hs, hHs.trans hlt.le, h5, h6⟩
    | cas tail i => rw [hput] at hp; exact hp
    | failed => rw [hput] at hp; exact hp
  | failed => rw [hpc] at hok; exact absurd hok id

end LfqLink

/-! ## What every interleaving keeps -/

namespace LfqLink

variable {size T W R : ℕ} {s : LfqLink α}

/-- A queue nothing was sent on. -/
theorem inv_create (hs : 1 ≤ size) (desc : ℕ → α) :
    Inv size ⟨lfqQueueCreateInit size desc, .idle, .idle, [], [], []⟩ 0 0 0 :=
  ⟨rfl, le_rfl, le_rfl, Nat.lt_of_lt_of_le Nat.zero_lt_one (hs.trans (Nat.zero_add size).ge),
    (Nat.zero_mod size).symm, (Nat.zero_mod size).symm, rfl, rfl, rfl, le_rfl,
    fun k _ hk => absurd hk (Nat.not_lt_zero k), rfl, rfl⟩

/-- **Every step keeps the invariant.** -/
theorem Inv.step (h : s.Inv size T W R) {l : LfqLabel α} {t : LfqLink α}
    (hst : (lfqSystem α size).step s l t) : ∃ T W R, t.Inv size T W R := by
  cases l with
  | send pkt =>
    obtain ⟨-, rfl⟩ := hst
    exact ⟨T, W, R, h.send pkt⟩
  | put =>
    obtain ⟨T', W', h'⟩ := h.putStep
    exact ⟨T', W', R, hst ▸ h'⟩
  | get =>
    obtain ⟨R', h'⟩ := h.getStep
    exact ⟨T, W, R', hst ▸ h'⟩

/-- **The invariant holds in every reachable state.** -/
theorem inv_of_reachable (hs : 1 ≤ size) (h : (lfqSystem α size).Reachable s) :
    ∃ T W R, s.Inv size T W R := by
  refine System.invariant (P := fun s => ∃ T W R, s.Inv size T W R)
    (fun s hi => ?_) (fun s l t hinv hst => ?_) h
  · obtain ⟨desc, rfl⟩ := hi
    exact ⟨0, 0, 0, inv_create hs desc⟩
  · obtain ⟨T, W, R, hinv⟩ := hinv
    exact hinv.step hst

/-- The slots between two positions of written packets hold those packets. -/
theorem Inv.window (h : s.Inv size T W R) {A B : ℕ} (hA : s.received.length ≤ A)
    (hAB : A ≤ B) (hB : B ≤ W) :
    (cyclic size (A % size) (cyclicDist size (A % size) (B % size))).map s.queue.desc
      = (s.sent.drop A).take (B - A) := by
  have hr := h.room
  exact map_cyclic_mod_eq hAB (by omega)
    (fun k hk hkB => h.desc_eq k (hA.trans hk) (hkB.trans_le hB))

theorem Inv.published_eq (h : s.Inv size T W R) :
    s.published = (s.sent.drop s.received.length).take (T - s.received.length) := by
  rw [published, h.size_eq, h.head_eq, h.tail_eq]
  exact h.window le_rfl h.le_tail h.tail_le

theorem Inv.written_eq (h : s.Inv size T W R) :
    s.written = (s.sent.drop T).take (W - T) := by
  have hput := h.put_ok
  have hempty : W = T → ([] : List α) = (s.sent.drop T).take (W - T) := by
    rintro rfl
    rw [Nat.sub_self, List.take_zero]
  unfold written
  cases hpc : s.put with
  | idle => rw [hpc] at hput; exact hempty hput
  | tail head => rw [hpc] at hput; exact hempty hput.1
  | body head tail i i_next count =>
    rw [hpc] at hput
    obtain ⟨rfl, rfl, -⟩ := hput
    dsimp only
    rw [h.size_eq]
    exact h.window h.le_tail h.tail_le le_rfl
  | cas tail i =>
    rw [hpc] at hput
    obtain ⟨rfl, rfl, -⟩ := hput
    dsimp only
    rw [h.size_eq]
    exact h.window h.le_tail h.tail_le le_rfl
  | failed => rw [hpc] at hput; exact absurd hput id

/-- What the consumer has read lies between what it has received and what is
published. -/
theorem Inv.read_bounds (h : s.Inv size T W R) : s.received.length ≤ R ∧ R ≤ T := by
  have hget := h.get_ok
  have hle := h.le_tail
  cases hpc : s.get with
  | idle => rw [hpc] at hget; have hR : R = _ := hget; omega
  | tail head => rw [hpc] at hget; have hR : R = _ := hget.1; omega
  | loop head tail i count =>
    rw [hpc] at hget
    obtain ⟨-, -, hcount, Ts, hTs, -, hR⟩ := hget
    omega
  | cas head i => rw [hpc] at hget; obtain ⟨-, -, hlt, hR⟩ := hget; omega
  | failed => rw [hpc] at hget; exact absurd hget id

theorem Inv.unread_eq (h : s.Inv size T W R) :
    s.unread = (s.sent.drop R).take (T - R) := by
  have hget := h.get_ok
  obtain ⟨hlo, hhi⟩ := h.read_bounds
  unfold unread
  cases hpc : s.get with
  | idle =>
    rw [hpc] at hget
    rw [show R = s.received.length from hget]
    exact h.published_eq
  | tail head =>
    rw [hpc] at hget
    rw [show R = s.received.length from hget.1]
    exact h.published_eq
  | loop head tail i count =>
    rw [hpc] at hget
    obtain ⟨-, rfl, -⟩ := hget
    dsimp only
    rw [h.size_eq, h.tail_eq]
    exact h.window hlo hhi h.tail_le
  | cas head i =>
    rw [hpc] at hget
    obtain ⟨-, rfl, -⟩ := hget
    dsimp only
    rw [h.size_eq, h.tail_eq]
    exact h.window hlo hhi h.tail_le
  | failed => rw [hpc] at hget; exact absurd hget id

/-- Three consecutive stretches of a list. -/
theorem take_append_stretches (l : List α) {a b c : ℕ} (hab : a ≤ b) (hbc : b ≤ c) :
    l.take a ++ (l.drop a).take (b - a) ++ (l.drop b).take (c - b) ++ l.drop c = l := by
  have h1 : l.take a ++ (l.drop a).take (b - a) = l.take b := by
    rw [← List.take_add, Nat.add_sub_cancel' hab]
  have h2 : l.take b ++ (l.drop b).take (c - b) = l.take c := by
    rw [← List.take_add, Nat.add_sub_cancel' hbc]
  rw [h1, h2, List.take_append_drop]

/-- The consumer reads slots of published packets it has not given back. -/
theorem Inv.mem_reading (h : s.Inv size T W R) {i : ℕ} (hi : i ∈ s.reading) :
    ∃ k, s.received.length ≤ k ∧ k < T ∧ i = k % size := by
  have hget := h.get_ok
  have hroom := h.room
  have htail := h.tail_le
  have key : ∀ B, s.received.length ≤ B → B ≤ T →
      i ∈ cyclic size (s.received.length % size)
        (cyclicDist size (s.received.length % size) (B % size)) →
      ∃ k, s.received.length ≤ k ∧ k < T ∧ i = k % size := by
    intro B hlo hhi hmem
    rw [cyclicDist_mod hlo (by omega), cyclic_mod, mem_cyclic] at hmem
    obtain ⟨k, hk, rfl⟩ := hmem
    exact ⟨s.received.length + k, Nat.le_add_right _ _, by omega, rfl⟩
  unfold reading at hi
  cases hpc : s.get with
  | idle => rw [hpc] at hi; exact absurd hi List.not_mem_nil
  | tail head => rw [hpc] at hi; exact absurd hi List.not_mem_nil
  | loop head tail j count =>
    rw [hpc] at hget hi
    obtain ⟨rfl, -, hcount, Ts, hTs, rfl, hR⟩ := hget
    dsimp only at hi
    rw [h.size_eq] at hi
    exact key Ts (by omega) hTs hi
  | cas head j =>
    rw [hpc] at hget hi
    obtain ⟨rfl, rfl, hlt, hR⟩ := hget
    dsimp only at hi
    rw [h.size_eq] at hi
    exact key R hlt.le hR hi
  | failed => rw [hpc] at hi; exact absurd hi List.not_mem_nil

/-- A step of the producer writes at most the slot just past what is written. -/
theorem Inv.desc_putStep (h : s.Inv size T W R) {i : ℕ} (hi : i ≠ W % size) :
    s.putStep.queue.desc i = s.queue.desc i := by
  have hput := h.put_ok
  unfold LfqLink.putStep
  cases hpc : s.put with
  | idle => rfl
  | tail head => dsimp only; split <;> rfl
  | body head tail j i_next count =>
    rw [hpc] at hput
    obtain ⟨-, rfl, -⟩ := hput
    dsimp only
    split
    · rfl
    · exact Function.update_of_ne hi _ _
  | cas tail j => dsimp only; split <;> rfl
  | failed => rfl

/-- **No step overwrites a slot the consumer is reading.** -/
theorem Inv.desc_of_reading (h : s.Inv size T W R) {l : LfqLabel α} {t : LfqLink α}
    (hst : (lfqSystem α size).step s l t) {i : ℕ} (hi : i ∈ s.reading) :
    t.queue.desc i = s.queue.desc i := by
  cases l with
  | send pkt => obtain ⟨-, rfl⟩ := hst; rfl
  | put =>
    obtain ⟨k, hlo, hhi, rfl⟩ := h.mem_reading hi
    have hroom := h.room
    have htail := h.tail_le
    rw [show t = s.putStep from hst]
    refine h.desc_putStep (fun he => ?_)
    exact absurd (eq_of_mod_eq (by omega) (by omega) he) (by omega)
  | get =>
    rw [show t = s.getStep from hst]
    unfold LfqLink.getStep
    cases s.get with
    | idle => rfl
    | tail head => rfl
    | loop head tail j count => dsimp only; split <;> rfl
    | cas head j => dsimp only; split <;> rfl
    | failed => rfl

end LfqLink

/-- What was received, the published slots, the written slots and the list are, in this
order, what was sent. -/
theorem LfqLink.Inv.sent_eq {size T W R : ℕ} {s : LfqLink α} (h : s.Inv size T W R) :
    s.received ++ s.published ++ s.written ++ s.queue.list = s.sent := by
  rw [h.published_eq, h.written_eq, h.list_eq]
  conv_lhs => rw [h.received_eq]
  rw [List.length_take, min_eq_left (h.le_tail.trans (h.tail_le.trans h.le_length))]
  exact LfqLink.take_append_stretches s.sent h.le_tail h.tail_le

namespace LfqLink

/-- The slots the consumer has not read, published or not. -/
def slots (s : LfqLink α) : List α := s.unread ++ s.written

/-- What the consumer has read, the slots it has not read and the list are, in this order,
what was sent. -/
theorem Inv.lhead_eq_sent {size T W R : ℕ} {s : LfqLink α} (h : s.Inv size T W R) :
    s.lhead ++ s.unread ++ s.written ++ s.queue.list = s.sent := by
  rw [h.unread_eq, h.written_eq, h.list_eq, h.lhead_eq]
  exact take_append_stretches s.sent h.read_bounds.2 h.tail_le

/-- With neither side at work the slots are the published ones. -/
theorem slots_of_idle {s : LfqLink α} (hput : s.put = .idle) (hget : s.get = .idle) :
    s.slots = s.published := by
  rw [slots, unread, written, hput, hget]
  exact List.append_nil _

/-- A step of the producer leaves the consumer's list and what was sent. -/
theorem putStep_lhead (s : LfqLink α) : s.putStep.lhead = s.lhead ∧ s.putStep.sent = s.sent := by
  unfold putStep
  split
  · exact ⟨rfl, rfl⟩
  · dsimp only
    split <;> exact ⟨rfl, rfl⟩
  · split <;> exact ⟨rfl, rfl⟩
  · split <;> exact ⟨rfl, rfl⟩
  · exact ⟨rfl, rfl⟩

/-- A step of the producer takes at most the first packet off the list. -/
theorem putStep_list (s : LfqLink α) : ∃ moved, s.queue.list = moved ++ s.putStep.queue.list := by
  unfold putStep
  split
  · exact ⟨[], rfl⟩
  · dsimp only
    split <;> exact ⟨[], rfl⟩
  · split
    · exact ⟨[], rfl⟩
    · rename_i pkt rest hl
      exact ⟨[pkt], hl⟩
  · split <;> exact ⟨[], rfl⟩
  · exact ⟨[], rfl⟩

/-- A step of the consumer leaves the list and what was sent, and appends to what it has
read. -/
theorem getStep_lhead (s : LfqLink α) : s.getStep.queue.list = s.queue.list
    ∧ s.getStep.sent = s.sent ∧ ∃ new, s.getStep.lhead = s.lhead ++ new := by
  unfold getStep
  split
  · exact ⟨rfl, rfl, [], (List.append_nil _).symm⟩
  · exact ⟨rfl, rfl, [], (List.append_nil _).symm⟩
  · split
    · exact ⟨rfl, rfl, _, rfl⟩
    · exact ⟨rfl, rfl, [], (List.append_nil _).symm⟩
  · split <;> exact ⟨rfl, rfl, [], (List.append_nil _).symm⟩
  · exact ⟨rfl, rfl, [], (List.append_nil _).symm⟩

/-- **The producer moves packets from the front of the list to the end of the slots.** -/
theorem Inv.slots_putStep {size T W R : ℕ} {s : LfqLink α} (h : s.Inv size T W R) :
    ∃ moved, s.queue.list = moved ++ s.putStep.queue.list
      ∧ s.putStep.slots = s.slots ++ moved := by
  obtain ⟨T', W', h'⟩ := h.putStep
  obtain ⟨moved, hmoved⟩ := s.putStep_list
  have hall := h.lhead_eq_sent
  have hall' := h'.lhead_eq_sent
  rw [s.putStep_lhead.1, s.putStep_lhead.2, ← hall, hmoved] at hall'
  refine ⟨moved, hmoved, ?_⟩
  simp only [← List.append_assoc] at hall'
  have hcancel := List.append_cancel_right hall'
  simp only [List.append_assoc] at hcancel
  rw [slots, slots, List.append_assoc]
  exact List.append_cancel_left hcancel

/-- **The consumer moves packets from the front of the slots to the end of its list.** -/
theorem Inv.slots_getStep {size T W R : ℕ} {s : LfqLink α} (h : s.Inv size T W R) :
    ∃ new, s.getStep.lhead = s.lhead ++ new ∧ s.slots = new ++ s.getStep.slots := by
  obtain ⟨R', h'⟩ := h.getStep
  obtain ⟨hlist, hsent, new, hnew⟩ := s.getStep_lhead
  have hall := h.lhead_eq_sent
  have hall' := h'.lhead_eq_sent
  rw [hlist, hsent, ← hall, hnew] at hall'
  refine ⟨new, hnew, ?_⟩
  have hcancel := List.append_cancel_right hall'
  simp only [List.append_assoc] at hcancel
  exact (List.append_cancel_left hcancel).symm

/-- No compare-and-swap fails. -/
theorem Inv.not_failed {size T W R : ℕ} {s : LfqLink α} (h : s.Inv size T W R) :
    s.put ≠ .failed ∧ s.get ≠ .failed := by
  have hput := h.put_ok
  have hget := h.get_ok
  refine ⟨fun hp => ?_, fun hg => ?_⟩
  · rw [hp] at hput
    exact hput
  · rw [hg] at hget
    exact hget

end LfqLink

/-- **The queue loses, duplicates and reorders nothing**, in any interleaving:
what was received, the published slots, the written slots and the list are, in
this order, what was sent; so are what the consumer has read so far, the
published slots it has not read, the written slots and the list. No step
overwrites a slot the consumer is reading, and no compare-and-swap fails. -/
theorem lfqSystem_safe {size : ℕ} (hs : 1 ≤ size) {s : LfqLink α}
    (h : (lfqSystem α size).Reachable s) :
    s.received ++ s.published ++ s.written ++ s.queue.list = s.sent
      ∧ s.lhead ++ s.unread ++ s.written ++ s.queue.list = s.sent
      ∧ (∀ l t, (lfqSystem α size).step s l t →
        ∀ i ∈ s.reading, t.queue.desc i = s.queue.desc i)
      ∧ s.put ≠ .failed ∧ s.get ≠ .failed := by
  obtain ⟨T, W, R, hinv⟩ := LfqLink.inv_of_reachable hs h
  exact ⟨hinv.sent_eq, hinv.lhead_eq_sent, fun l t hst i hi => hinv.desc_of_reading hst hi,
    hinv.not_failed⟩

/-- A queue of two slots with one packet sent, whose producer takes steps. -/
def oneSent (n : ℕ) : LfqLink ℕ :=
  LfqLink.putStep^[n]
    ⟨lfqSend (lfqQueueCreateInit 2 (fun _ => 0)) 7, .idle, .idle, [], [], [7]⟩

theorem oneSent_reachable (n : ℕ) : (lfqSystem ℕ 2).Reachable (oneSent n) := by
  induction n with
  | zero =>
    have h0 : (lfqSystem ℕ 2).Reachable
        ⟨lfqQueueCreateInit 2 (fun _ => 0), .idle, .idle, [], [], []⟩ :=
      System.Reachable.of_init ⟨_, rfl⟩
    exact h0.step (show (lfqSystem ℕ 2).step _ (.send 7) _ from ⟨rfl, rfl⟩)
  | succ n ih =>
    exact ih.step (show (lfqSystem ℕ 2).step _ .put _ from
      Function.iterate_succ_apply' _ _ _)

/-- After three steps the packet is written and not yet published. -/
theorem lfqSystem_safe_written :
    (oneSent 3).written = [7]
      ∧ (oneSent 3).received ++ (oneSent 3).published ++ (oneSent 3).written
        ++ (oneSent 3).queue.list = (oneSent 3).sent :=
  ⟨by decide, (lfqSystem_safe (by decide) (oneSent_reachable 3)).1⟩
