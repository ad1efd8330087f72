import Ustack.PortRange
import Ustack.Runs

/-!
# Handing out ports

What a range of `src/port_range.c` does over any sequence of calls: a port is handed out
at most once until it is returned. The ports between the get and the put position and the
ports handed out are together the ports the range was filled with
(`PortAccount.Ok`), which is what taking the next port, taking a chosen one out of the
middle and returning one all keep.

To its callers a range is a queue (`PortRange.Holds`): a call answers what it answers on the
queue, and of the get and the put position nothing shows.
-/

namespace PortRange

/-- The ports from the get position up to the put position. -/
def between (r : PortRange) : List UInt16 :=
  (cyclic r.size r.get (cyclicDist r.size r.get r.put)).map r.ports

/-- With a slot to spare the counters in step count what is between the positions. -/
theorem InStep.cyclicDist_eq {r : PortRange} (h : r.InStep) (hfree : r.avail < r.size) :
    cyclicDist r.size r.get r.put = r.avail := by
  have hdist := cyclicDist_mod (Nat.le_add_right r.get r.avail) (by rwa [Nat.add_sub_cancel_left])
  rwa [Nat.mod_eq_of_lt r.get_lt, ← h, Nat.add_sub_cancel_left] at hdist

theorem InStep.between_eq {r : PortRange} (h : r.InStep) (hfree : r.avail < r.size) :
    r.between = r.available := by
  rw [between, available, h.cyclicDist_eq hfree]

/-- **The search looks at every slot up to the put position.** -/
theorem portRangeFind_eq {r : PortRange} (port : UInt16) {start len fuel : ℕ}
    (hput : r.put = (start + len) % r.size) (hlen : len < r.size) (hfuel : len < fuel) :
    portRangeFind r port fuel (start % r.size)
      = (cyclic r.size start len).find? (fun i => r.ports i == port) := by
  induction fuel generalizing start len with
  | zero => exact absurd hfuel (Nat.not_lt_zero _)
  | succ fuel ih =>
    rw [portRangeFind]
    cases len with
    | zero =>
      rw [Nat.add_zero] at hput
      rw [if_pos hput.symm, cyclic_zero, List.find?_nil]
    | succ len =>
      have hne : start % r.size ≠ r.put := fun he => by
        have hinj := add_mod_inj (a := start) (Nat.zero_lt_of_lt hlen) hlen (he.trans hput)
        exact absurd hinj (Nat.succ_ne_zero len).symm
      rw [if_neg hne, cyclic_succ', List.find?_cons]
      by_cases hport : r.ports (start % r.size) = port
      · rw [if_pos hport, beq_iff_eq.mpr hport]
      · rw [if_neg hport, beq_eq_false_iff_ne.mpr hport, Nat.mod_add_mod]
        exact ih (by rw [hput, Nat.add_assoc, Nat.add_comm 1 len]) (Nat.lt_of_succ_lt hlen)
          (Nat.lt_of_succ_lt_succ hfuel)

/-- **A chosen port that is available and reserved is taken**, and nothing else is. -/
theorem getPort2_of_mem {r : PortRange} {port : UInt16} (h : r.InStep)
    (hfree : r.avail < r.size) (hreserved : (htons port).toNat ≤ reservedPortsMax)
    (hmem : port ∈ r.available) :
    (portRangeGetPort2 r port).1 = port ∧ (portRangeGetPort2 r port).2.InStep
      ∧ (portRangeGetPort2 r port).2.size = r.size
      ∧ r.available.Perm (port :: (portRangeGetPort2 r port).2.available) := by
  obtain ⟨slot, hslot, hport⟩ := List.mem_map.mp hmem
  have hfind := portRangeFind_eq port h hfree hfree
  rw [Nat.mod_eq_of_lt r.get_lt] at hfind
  obtain ⟨i, hi⟩ : ∃ i, (cyclic r.size r.get r.avail).find? (fun i => r.ports i == port)
      = some i := Option.isSome_iff_exists.mp (List.find?_isSome.mpr
    ⟨slot, hslot, beq_iff_eq.mpr hport⟩)
  have hiport : r.ports i = port := by simpa using List.find?_some hi
  have himem := List.mem_of_find?_eq_some hi
  have havail : r.avail ≠ 0 := fun he => by
    rw [available, he] at hmem
    exact absurd hmem List.not_mem_nil
  let swapped : PortRange :=
    { r with ports := Function.update r.ports i (r.ports r.get) }
  have hcall : portRangeGetPort2 r port = (port, (portRangeGetPort1 swapped).2) := by
    rw [portRangeGetPort2, if_neg (not_lt.mpr hreserved), hfind, hi]
  have hfront : (portRangeGetPort1 swapped).1 = r.ports r.get := by
    rw [portRangeGetPort1, if_neg havail]
    show Function.update r.ports i (r.ports r.get) r.get = r.ports r.get
    by_cases hget : r.get = i
    · rw [← hget, Function.update_self]
    · rw [Function.update_of_ne hget]
  have hstep : swapped.InStep := h
  have htake : swapped.available
      = r.ports r.get :: (portRangeGetPort1 swapped).2.available := by
    rw [available_getPort1 (r := swapped) havail, hfront]
  -- the port asked for and the first one change places
  have hswap : (r.ports i :: swapped.available).Perm (r.ports r.get :: r.available) :=
    perm_map_update (nodup_cyclic hfree.le) himem r.ports (r.ports r.get)
  rw [hcall]
  refine ⟨rfl, hstep.getPort1, size_getPort1, ?_⟩
  rw [htake, hiport] at hswap
  exact ((List.Perm.swap _ _ _).trans hswap).cons_inv.symm

/-- A chosen port that is not available, or not reserved, is not taken. -/
theorem getPort2_of_not {r : PortRange} {port : UInt16} (h : r.InStep)
    (hfree : r.avail < r.size)
    (hnot : ¬ (port ∈ r.available ∧ (htons port).toNat ≤ reservedPortsMax)) :
    portRangeGetPort2 r port = (0, r) := by
  rw [portRangeGetPort2]
  split
  · rfl
  · rename_i hreserved
    have hnone : (cyclic r.size r.get r.avail).find? (fun i => r.ports i == port) = none := by
      refine List.find?_eq_none.mpr (fun i hi hport => hnot ⟨?_, not_lt.mp hreserved⟩)
      exact List.mem_map.mpr ⟨i, hi, beq_iff_eq.mp hport⟩
    have hfind := portRangeFind_eq port h hfree hfree
    rw [Nat.mod_eq_of_lt r.get_lt, hnone] at hfind
    rw [hfind]

end PortRange

/-! ## A range as a queue -/

/-- What a range answers, as a queue of ports, and the queue after it: the first port for port
zero, else this one, if it is reserved and in the queue, and then the first one takes its
place. -/
def takePort (queue : List UInt16) (port : UInt16) : UInt16 × List UInt16 :=
  match queue with
  | [] => (0, [])
  | first :: rest =>
    if port = 0 then (first, rest)
    else if reservedPortsMax < (htons port).toNat then (0, queue)
    else if port = first then (port, rest)
    else if port ∈ rest then (port, rest.replace port first)
    else (0, queue)

/-- A port goes to the end of a queue. -/
def returnPort (queue : List UInt16) (port : UInt16) : List UInt16 :=
  if port = 0 then queue else queue ++ [port]

/-- **A range made for `n` ports holds a queue of them.** -/
structure PortRange.Holds (r : PortRange) (n : ℕ) (queue : List UInt16) : Prop where
  /-- The counters are in step. -/
  inStep : r.InStep
  /-- One slot is to spare. -/
  size : r.size = n + 1
  /-- The ports available are the queue. -/
  available : r.available = queue
  /-- There is room for them. -/
  length_le : queue.length ≤ n

namespace PortRange

variable {r : PortRange} {n : ℕ} {queue : List UInt16}

theorem Holds.avail (h : r.Holds n queue) : r.avail = queue.length := by
  rw [← h.available, length_available]

theorem Holds.free (h : r.Holds n queue) : r.avail < r.size := by
  rw [h.avail, h.size]
  exact Nat.lt_succ_of_le h.length_le

/-- The port at the front of a range that is not exhausted. -/
theorem Holds.front {first : UInt16} {rest : List UInt16} (h : r.Holds n (first :: rest)) :
    portRangeGetPort1 r = (first, (portRangeGetPort1 r).2)
      ∧ (portRangeGetPort1 r).2.Holds n rest := by
  have havail : r.avail ≠ 0 := by
    rw [h.avail]
    exact Nat.succ_ne_zero _
  have hqueue := (available_getPort1 havail).symm.trans h.available
  have hle := h.length_le
  rw [List.length_cons] at hle
  exact ⟨Prod.ext (List.cons.inj hqueue).1 rfl, h.inStep.getPort1, size_getPort1.trans h.size,
    (List.cons.inj hqueue).2, Nat.le_of_succ_le hle⟩

/-- The chosen port is the front, which is exchanged with itself. -/
theorem Holds.getPort2_front {first : UInt16} {rest : List UInt16}
    (h : r.Holds n (first :: rest)) (hreserved : (htons first).toNat ≤ reservedPortsMax) :
    (portRangeGetPort2 r first).1 = first ∧ (portRangeGetPort2 r first).2.Holds n rest := by
  have hlen : r.avail = rest.length + 1 := h.avail
  have havail : r.avail ≠ 0 := hlen ▸ Nat.succ_ne_zero _
  have hfront : r.ports r.get = first := by
    have hqueue := congrArg Prod.fst h.front.1
    rwa [portRangeGetPort1, if_neg havail] at hqueue
  have hfind : portRangeFind r first r.size r.get = some r.get := by
    have hsearch := portRangeFind_eq first h.inStep h.free h.free
    rwa [Nat.mod_eq_of_lt r.get_lt, hlen, cyclic_succ', List.find?_cons,
      Nat.mod_eq_of_lt r.get_lt, beq_iff_eq.mpr hfront] at hsearch
  have hcall : portRangeGetPort2 r first = (first, (portRangeGetPort1 r).2) := by
    rw [portRangeGetPort2, if_neg (not_lt.mpr hreserved), hfind]
    simp only [Function.update_eq_self]
  rw [hcall]
  exact ⟨rfl, h.front.2⟩

/-- **A chosen port behind the front**: the front takes its place. -/
theorem Holds.getPort2 {first port : UInt16} {rest : List UInt16}
    (h : r.Holds n (first :: rest)) (hreserved : (htons port).toNat ≤ reservedPortsMax)
    (hne : port ≠ first) (hmem : port ∈ rest) :
    (portRangeGetPort2 r port).1 = port
      ∧ (portRangeGetPort2 r port).2.Holds n (rest.replace port first) := by
  obtain ⟨hret, hstep, hsize, -⟩ := getPort2_of_mem h.inStep h.free hreserved
    (h.available ▸ List.mem_cons_of_mem _ hmem)
  have hlen : r.avail = rest.length + 1 := h.avail
  -- the slots, the first of which is the get position
  have hslots : cyclic r.size r.get r.avail = r.get :: cyclic r.size (r.get + 1) rest.length := by
    rw [hlen, cyclic_succ', Nat.mod_eq_of_lt r.get_lt]
  have hports : r.ports r.get = first
      ∧ (cyclic r.size (r.get + 1) rest.length).map r.ports = rest := by
    have hqueue := h.available
    rw [PortRange.available, hslots, List.map_cons] at hqueue
    exact List.cons.inj hqueue
  have hnodup : (r.get :: cyclic r.size (r.get + 1) rest.length).Nodup :=
    hslots ▸ nodup_cyclic h.free.le
  obtain ⟨i, hi⟩ : ∃ i, (cyclic r.size (r.get + 1) rest.length).find? (fun i => r.ports i == port)
      = some i := by
    rw [← hports.2] at hmem
    obtain ⟨i, hi, hport⟩ := List.mem_map.mp hmem
    exact Option.isSome_iff_exists.mp (List.find?_isSome.mpr ⟨i, hi, beq_iff_eq.mpr hport⟩)
  have hfind : portRangeFind r port r.size r.get = some i := by
    have hsearch := portRangeFind_eq port h.inStep h.free h.free
    rw [Nat.mod_eq_of_lt r.get_lt, hslots, List.find?_cons,
      beq_eq_false_iff_ne.mpr (hports.1 ▸ hne.symm)] at hsearch
    exact hsearch.trans hi
  have hget : r.get ≠ i :=
    (ne_of_mem_of_not_mem (List.mem_of_find?_eq_some hi) (List.nodup_cons.mp hnodup).1).symm
  refine ⟨hret, hstep, hsize.trans h.size, ?_, ?_⟩
  · have hcall : (portRangeGetPort2 r port).2 = (portRangeGetPort1
        { r with ports := Function.update r.ports i (r.ports r.get) }).2 := by
      rw [portRangeGetPort2, if_neg (not_lt.mpr hreserved), hfind]
    have havail : r.avail ≠ 0 := hlen ▸ Nat.succ_ne_zero _
    have hswapped := available_getPort1
      (r := { r with ports := Function.update r.ports i (r.ports r.get) }) havail
    have hbefore : (PortRange.available
        { r with ports := Function.update r.ports i (r.ports r.get) })
        = first :: rest.replace port first := by
      show (cyclic r.size r.get r.avail).map (Function.update r.ports i (r.ports r.get)) = _
      rw [hslots, List.map_cons, Function.update_of_ne hget, hports.1,
        map_update_eq_replace (List.nodup_cons.mp hnodup).2 hi, hports.2]
    rw [hcall]
    exact (List.cons.inj (hswapped.symm.trans hbefore)).2
  · rw [List.length_replace]
    exact Nat.le_of_succ_le h.length_le

/-- **A range answers as the queue it holds.** -/
theorem Holds.getPort (h : r.Holds n queue) (port : UInt16) :
    (portRangeGetPort r port).1 = (takePort queue port).1
      ∧ (portRangeGetPort r port).2.Holds n (takePort queue port).2 := by
  cases queue with
  | nil =>
    have havail : r.avail = 0 := h.avail
    have hnot : ¬(port ∈ r.available ∧ (htons port).toNat ≤ reservedPortsMax) := fun hmem => by
      rw [h.available] at hmem
      exact absurd hmem.1 List.not_mem_nil
    have hcall : portRangeGetPort r port = (0, r) := by
      rw [portRangeGetPort]
      split
      · exact getPort1_of_avail_eq_zero havail
      · exact getPort2_of_not h.inStep h.free hnot
    rw [hcall]
    exact ⟨rfl, h⟩
  | cons first rest =>
    rw [portRangeGetPort, takePort]
    by_cases hport : port = 0
    · rw [if_pos hport, if_pos hport]
      exact ⟨congrArg Prod.fst h.front.1, h.front.2⟩
    · rw [if_neg hport, if_neg hport]
      have hno : ¬(port ∈ r.available ∧ (htons port).toNat ≤ reservedPortsMax) →
          portRangeGetPort2 r port = (0, r) := getPort2_of_not h.inStep h.free
      rw [h.available] at hno
      split
      · rename_i hreserved
        rw [hno (fun hmem => not_le.mpr hreserved hmem.2)]
        exact ⟨rfl, h⟩
      · rename_i hreserved
        split
        · rename_i hfirst
          obtain rfl := hfirst
          exact h.getPort2_front (not_lt.mp hreserved)
        · rename_i hne
          split
          · rename_i hmem
            exact h.getPort2 (not_lt.mp hreserved) hne hmem
          · rename_i hnot
            rw [hno (fun hmem => (List.mem_cons.mp hmem.1).elim hne hnot)]
            exact ⟨rfl, h⟩

/-- **A port is returned to the end of the queue**, where there is room. -/
theorem Holds.putPort (h : r.Holds n queue) {port : UInt16} (hroom : port = 0 ∨ queue.length < n) :
    (portRangePutPort r port).Holds n (returnPort queue port) := by
  by_cases hport : port = 0
  · rw [portRangePutPort, returnPort, if_pos hport, if_pos hport]
    exact h
  · rw [returnPort, if_neg hport]
    refine ⟨h.inStep.putPort port, (size_putPort port).trans h.size, ?_, ?_⟩
    · rw [available_putPort h.inStep hport h.free, h.available]
    · rw [List.length_append]
      exact hroom.resolve_left hport

/-- A range that was never filled. -/
theorem holds_create (n : ℕ) : (portRangeCreate n).Holds n [] :=
  ⟨inStep_create n, rfl, available_create n, Nat.zero_le n⟩

/-- Returning ports one after the other. -/
theorem Holds.foldl (h : r.Holds n queue) (ports : List UInt16)
    (hroom : queue.length + ports.length ≤ n) :
    (ports.foldl portRangePutPort r).Holds n (ports.foldl returnPort queue) := by
  induction ports generalizing r queue with
  | nil => exact h
  | cons port ports ih =>
    rw [List.length_cons] at hroom
    refine ih (h.putPort (.inr (by omega))) ?_
    rw [returnPort]
    split
    · omega
    · rw [List.length_append, List.length_singleton]
      omega

/-- **A range filled with a slice** holds it, port zero left out. -/
theorem holds_init (low high : UInt16) :
    (portRangeInit (portRangeCreate (high.toNat + 1 - low.toNat)) low high).Holds
      (high.toNat + 1 - low.toNat) ((portSlice low high).foldl returnPort []) := by
  rw [portRangeInit_eq_foldl]
  refine (holds_create _).foldl _ ?_
  rw [length_portSlice, List.length_nil, Nat.zero_add]

end PortRange

/-! ## Any sequence of calls -/

/-- A range, and the ports handed out and not returned. -/
structure PortAccount where
  /-- The range. -/
  range : PortRange
  /-- The ports handed out. -/
  outstanding : List UInt16

/-- A call. -/
inductive PortCall
  /-- `port_range_get_port`: any port for port zero, else this one. -/
  | get (port : UInt16)
  /-- `port_range_put_port`. -/
  | put (port : UInt16)

/-- The account after `port_range_get_port`. -/
def PortAccount.get (s : PortAccount) (port : UInt16) : PortAccount :=
  let (ret, range) := portRangeGetPort s.range port
  ⟨range, if ret = 0 then s.outstanding else ret :: s.outstanding⟩

/-- The account after `port_range_put_port`. -/
def PortAccount.put (s : PortAccount) (port : UInt16) : PortAccount :=
  ⟨portRangePutPort s.range port, s.outstanding.erase port⟩

/-- **A range that was filled with the ports from `low` to `high`, under any calls.** Only
ports that are outstanding are returned. -/
def portSystem (low high : UInt16) : System PortAccount PortCall where
  init s := s = ⟨portRangeInit (portRangeCreate (high.toNat + 1 - low.toNat)) low high, []⟩
  step s c t :=
    match c with
    | .get port => t = s.get port
    | .put port => port ∈ s.outstanding ∧ t = s.put port

namespace PortAccount

/-- **The accounts of a range that has these ports.** -/
structure Ok (ports : List UInt16) (s : PortAccount) : Prop where
  /-- A port is available or outstanding. -/
  perm : (s.range.available ++ s.outstanding).Perm ports
  /-- The counters are in step. -/
  inStep : s.range.InStep
  /-- One slot is to spare. -/
  size : s.range.size = ports.length + 1

variable {ports : List UInt16} {s t : PortAccount}

theorem Ok.free (h : s.Ok ports) : s.range.avail < s.range.size := by
  have hlen := h.perm.length_eq
  rw [List.length_append, PortRange.length_available] at hlen
  rw [h.size, ← hlen]
  exact Nat.lt_succ_of_le (Nat.le_add_right _ _)

/-- Any port that is handed out was available. -/
theorem Ok.getPort1 (h : s.Ok ports) (havail : s.range.avail ≠ 0) :
    Ok ports ⟨(portRangeGetPort1 s.range).2,
      (portRangeGetPort1 s.range).1 :: s.outstanding⟩ := by
  refine ⟨?_, h.inStep.getPort1, PortRange.size_getPort1.trans h.size⟩
  refine List.perm_middle.trans ?_
  rw [← List.cons_append, ← PortRange.available_getPort1 havail]
  exact h.perm

theorem Ok.get (h : s.Ok ports) (hz : (0 : UInt16) ∉ ports) (port : UInt16) :
    (s.get port).Ok ports := by
  unfold PortAccount.get portRangeGetPort
  by_cases hport : port = 0
  · rw [if_pos hport]
    dsimp only
    by_cases havail : s.range.avail = 0
    · rw [PortRange.getPort1_of_avail_eq_zero havail, if_pos rfl]
      exact h
    · have hok := h.getPort1 havail
      have hne : (portRangeGetPort1 s.range).1 ≠ 0 := fun he => by
        refine hz (h.perm.mem_iff.mp (List.mem_append_left _ ?_))
        rw [PortRange.available_getPort1 havail, he]
        exact List.mem_cons_self
      rw [if_neg hne]
      exact hok
  · rw [if_neg hport]
    dsimp only
    by_cases hmem : port ∈ s.range.available ∧ (htons port).toNat ≤ reservedPortsMax
    · obtain ⟨hret, hstep, hsize, hperm⟩ :=
        PortRange.getPort2_of_mem h.inStep h.free hmem.2 hmem.1
      rw [hret, if_neg hport]
      refine ⟨?_, hstep, hsize.trans h.size⟩
      exact List.perm_middle.trans ((hperm.symm.append_right _).trans h.perm)
    · rw [PortRange.getPort2_of_not h.inStep h.free hmem, if_pos rfl]
      exact h

theorem Ok.put (h : s.Ok ports) (hz : (0 : UInt16) ∉ ports) {port : UInt16}
    (hmem : port ∈ s.outstanding) : (s.put port).Ok ports := by
  have hport : port ≠ 0 := fun he =>
    hz (h.perm.mem_iff.mp (List.mem_append_right _ (he ▸ hmem)))
  refine ⟨?_, h.inStep.putPort port, (PortRange.size_putPort port).trans h.size⟩
  show ((portRangePutPort s.range port).available ++ s.outstanding.erase port).Perm ports
  rw [PortRange.available_putPort h.inStep hport h.free, List.append_assoc]
  exact ((List.perm_cons_erase hmem).symm.append_left _).trans h.perm

/-- **The accounts of a filled range stay in order.** -/
theorem ok_of_reachable {low high : UInt16} (hlow : 1 ≤ low.toNat)
    (h : (portSystem low high).Reachable s) : s.Ok (portSlice low high) := by
  refine System.invariant (P := fun s => s.Ok (portSlice low high)) (fun s hs => ?_)
    (fun s c t hok hst => ?_) h
  · obtain rfl := hs
    have hfits : high.toNat + 1 - low.toNat = high.toNat + 1 - low.toNat := rfl
    obtain ⟨havail, hstep, hsize⟩ := portRangeInit_create hlow hfits
    exact ⟨by rw [havail, List.append_nil], hstep, by rw [hsize, length_portSlice]⟩
  · cases c with
    | get port =>
      obtain rfl : t = _ := hst
      exact hok.get (zero_notMem_portSlice hlow) port
    | put port =>
      obtain ⟨hmem, rfl⟩ := hst
      exact hok.put (zero_notMem_portSlice hlow) hmem

end PortAccount

/-- **A port is handed out at most once.** -/
structure PortAccount.HandsOut (ports : List UInt16) (s : PortAccount) : Prop where
  /-- What is between the positions and what is outstanding are the ports. -/
  perm : (s.range.between ++ s.outstanding).Perm ports
  /-- None is there twice. -/
  nodup : (s.range.between ++ s.outstanding).Nodup
  /-- `avail` counts what is between. -/
  avail : s.range.avail = s.range.between.length
  /-- A returned port is put behind those, and overwrites none of them. -/
  put : ∀ port ∈ s.outstanding, s.range.put ∉ cyclic s.range.size s.range.get s.range.avail
    ∧ (portRangePutPort s.range port).between = s.range.between ++ [port]
  /-- Without a wish, zero is answered only when every port is outstanding. -/
  exhausted : (portRangeGetPort s.range 0).1 = 0 → ∀ port ∈ ports, port ∈ s.outstanding
  /-- A wish is met exactly for an available reserved port. -/
  chosen : ∀ port, port ≠ 0 →
    if port ∈ s.range.between ∧ (htons port).toNat ≤ reservedPortsMax
    then (portRangeGetPort s.range port).1 = port
    else portRangeGetPort s.range port = (0, s.range)

/-- **Every state of a filled range hands out each of its ports at most once.** -/
theorem portSystem_handsOut {low high : UInt16} {s : PortAccount} (hlow : 1 ≤ low.toNat)
    (h : (portSystem low high).Reachable s) : s.HandsOut (portSlice low high) := by
  have hok := PortAccount.ok_of_reachable hlow h
  have hz : (0 : UInt16) ∉ portSlice low high := zero_notMem_portSlice hlow
  have hbetween := hok.inStep.between_eq hok.free
  refine ⟨?_, ?_, ?_, fun port hmem => ⟨?_, ?_⟩, fun hzero port hmem => ?_,
    fun port hport => ?_⟩
  · rw [hbetween]
    exact hok.perm
  · rw [hbetween]
    exact hok.perm.nodup_iff.mpr (nodup_portSlice low high)
  · rw [hbetween, PortRange.length_available]
  · rw [hok.inStep]
    exact notMem_cyclic hok.free
  · have hne : port ≠ 0 := fun he =>
      hz (hok.perm.mem_iff.mp (List.mem_append_right _ (he ▸ hmem)))
    have hok' := hok.put hz hmem
    rw [hbetween, ← PortRange.available_putPort hok.inStep hne hok.free]
    exact hok'.inStep.between_eq hok'.free
  · have havail : s.range.avail = 0 := by
      by_contra hne
      refine hz (hok.perm.mem_iff.mp (List.mem_append_left _ ?_))
      rw [PortRange.available_getPort1 hne, show (portRangeGetPort1 s.range).1 = 0 from hzero]
      exact List.mem_cons_self
    have hnil : s.range.available = [] := by rw [PortRange.available, havail]; rfl
    have hall := hok.perm.mem_iff.mpr hmem
    rwa [hnil, List.nil_append] at hall
  · rw [portRangeGetPort, if_neg hport, hbetween]
    split
    · rename_i hmem
      exact (PortRange.getPort2_of_mem hok.inStep hok.free hmem.2 hmem.1).1
    · rename_i hnot
      exact PortRange.getPort2_of_not hok.inStep hok.free hnot

/-- A range of three ports after one of them was chosen. -/
theorem portSystem_handsOut_chosen :
    let s : PortAccount := ⟨portRangeInit (portRangeCreate 3) 5 7, []⟩
    (s.get (htons 6)).range.between = [htons 5, htons 7]
      ∧ (s.get (htons 6)).HandsOut (portSlice 5 7) :=
  ⟨by decide +kernel, portSystem_handsOut (by decide)
    ((System.Reachable.of_init (S := portSystem 5 7) rfl).step
      (show (portSystem 5 7).step _ (.get (htons 6)) _ from rfl))⟩
