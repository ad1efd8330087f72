import Ustack.Cyclic
import Ustack.Types

/-!
# Port ranges

`src/port_range.c`. A range is a ring of ports with one spare slot: `get` is the
next port to hand out, `put` the slot the next returned port goes to, and
`avail` counts the ports in between. The file stores the ports as `htons` of
their number, although its own comments say host order; the readers of the field
disagree about that, the ring does not care.

The three counters are redundant, and `PortRange.InStep` is the equation between
them that every operation keeps. What the ring holds is `PortRange.available`,
the window of `avail` slots from `get`, and taking and putting a port are a
`head` and an append on it – the latter only while the spare slot keeps the put
from overwriting a port still available.
-/

/-- `RESERVED_PORTS_MAX`. -/
def reservedPortsMax : ℕ := 1023

/-- **A port range.** The two positions stay inside the ring whatever happens to
the counters. -/
structure PortRange where
  /-- The number of slots. -/
  size : ℕ
  /-- The slot of the next port to hand out. -/
  get : ℕ
  /-- The slot the next returned port goes to. -/
  put : ℕ
  /-- The number of available ports left. -/
  avail : ℕ
  /-- The slots. -/
  ports : ℕ → UInt16
  /-- The get position is a slot. -/
  get_lt : get < size
  /-- The put position is a slot. -/
  put_lt : put < size

namespace PortRange

/-- The ports a range still has, in the order it hands them out. -/
def available (r : PortRange) : List UInt16 :=
  (cyclic r.size r.get r.avail).map r.ports

/-- **The counters are in step**: the put position is `avail` slots past the get
position. -/
def InStep (r : PortRange) : Prop := r.put = (r.get + r.avail) % r.size

theorem length_available (r : PortRange) : r.available.length = r.avail := by
  rw [available, List.length_map, length_cyclic]

end PortRange

/-- `port_range_create`: `n` ports and one spare slot, zeroed by `CALLOC`. -/
def portRangeCreate (n : ℕ) : PortRange where
  size := n + 1
  get := 0
  put := 0
  avail := 0
  ports := fun _ => 0
  get_lt := Nat.succ_pos n
  put_lt := Nat.succ_pos n

instance : Inhabited PortRange := ⟨portRangeCreate 0⟩

/-- `port_range_get_port1`: the next port, or zero if none is left. -/
def portRangeGetPort1 (range : PortRange) : UInt16 × PortRange :=
  if range.avail = 0 then (0, range)
  else (range.ports range.get,
    { range with
      get := wrapNext range.size range.get
      avail := range.avail - 1
      get_lt := wrapNext_lt range.get_lt })

/-- `port_range_put_port`: return a port; port zero is ignored. -/
def portRangePutPort (range : PortRange) (port : UInt16) : PortRange :=
  if port = 0 then range
  else { range with
    ports := Function.update range.ports range.put port
    avail := range.avail + 1
    put := wrapNext range.size range.put
    put_lt := wrapNext_lt range.put_lt }

/-- `port_range_init`: put the ports from `port1` to `port2`, both included,
byte-swapped. -/
def portRangeInit (range : PortRange) (port1 port2 : UInt16) : PortRange :=
  (List.range' port1.toNat (port2.toNat + 1 - port1.toNat)).foldl
    (fun r i => portRangePutPort r (htons (UInt16.ofNat i))) range

/-- The search of `port_range_get_port2`, from slot `i` up to the put
position. The ring has `fuel` slots left to look at. -/
def portRangeFind (range : PortRange) (port : UInt16) : ℕ → ℕ → Option ℕ
  | 0, _ => none
  | fuel + 1, i =>
    if i = range.put then none
    else if range.ports i = port then some i
    else portRangeFind range port fuel ((i + 1) % range.size)

/-- `port_range_get_port2`: one chosen reserved port, moved to the front of the
ring and taken from there. -/
def portRangeGetPort2 (range : PortRange) (port : UInt16) : UInt16 × PortRange :=
  if reservedPortsMax < (htons port).toNat then (0, range)
  else match portRangeFind range port range.size range.get with
    | none => (0, range)
    | some i =>
      (port, (portRangeGetPort1 { range with
        ports := Function.update range.ports i (range.ports range.get) }).2)

/-- `port_range_get_port`: any port for port zero, else the port asked for. -/
def portRangeGetPort (range : PortRange) (port : UInt16) : UInt16 × PortRange :=
  if port = 0 then portRangeGetPort1 range else portRangeGetPort2 range port

/-! ## What the operations do to the ring -/

namespace PortRange

variable {r : PortRange}

@[simp] theorem available_create (n : ℕ) : (portRangeCreate n).available = [] := rfl

theorem inStep_create (n : ℕ) : (portRangeCreate n).InStep := by
  show 0 = (0 + 0) % (n + 1)
  rw [Nat.zero_mod]

/-- An exhausted range hands out nothing and stays as it is. -/
theorem getPort1_of_avail_eq_zero (h : r.avail = 0) :
    portRangeGetPort1 r = (0, r) := by
  rw [portRangeGetPort1, if_pos h]

/-- **Taking a port takes the head of the ring.** -/
theorem available_getPort1 (h : r.avail ≠ 0) :
    r.available = (portRangeGetPort1 r).1 :: (portRangeGetPort1 r).2.available := by
  obtain ⟨n, hn⟩ := Nat.exists_eq_succ_of_ne_zero h
  rw [portRangeGetPort1, if_neg h]
  unfold available
  simp only [hn, Nat.succ_sub_one, Nat.succ_eq_add_one]
  rw [cyclic_succ', List.map_cons, Nat.mod_eq_of_lt r.get_lt, wrapNext_eq_mod r.get_lt,
    cyclic_mod]

theorem InStep.getPort1 (h : r.InStep) : (portRangeGetPort1 r).2.InStep := by
  unfold portRangeGetPort1
  split
  · exact h
  · rename_i hne
    show r.put = (wrapNext r.size r.get + (r.avail - 1)) % r.size
    rw [wrapNext_eq_mod r.get_lt, Nat.mod_add_mod, h]
    congr 1
    omega

@[simp] theorem size_getPort1 : (portRangeGetPort1 r).2.size = r.size := by
  unfold portRangeGetPort1
  split <;> rfl

theorem InStep.putPort (h : r.InStep) (port : UInt16) :
    (portRangePutPort r port).InStep := by
  unfold portRangePutPort
  split
  · exact h
  · show wrapNext r.size r.put = (r.get + (r.avail + 1)) % r.size
    rw [wrapNext_eq_mod r.put_lt, h, Nat.mod_add_mod, Nat.add_assoc]

@[simp] theorem size_putPort (port : UInt16) :
    (portRangePutPort r port).size = r.size := by
  unfold portRangePutPort
  split <;> rfl

theorem avail_putPort {port : UInt16} (hp : port ≠ 0) :
    (portRangePutPort r port).avail = r.avail + 1 := by
  rw [portRangePutPort, if_neg hp]

/-- **Putting a port appends it**, while a slot is free for it. -/
theorem available_putPort {port : UInt16} (h : r.InStep) (hp : port ≠ 0)
    (hfree : r.avail < r.size) :
    (portRangePutPort r port).available = r.available ++ [port] := by
  rw [portRangePutPort, if_neg hp]
  unfold available
  dsimp only
  rw [cyclic_succ, List.map_append, List.map_singleton, ← h, Function.update_self,
    map_update_of_notMem (by rw [h]; exact notMem_cyclic hfree)]

/-- A range in step has every port it ever got nonzero, also past a put that
overwrites: what a put writes is nonzero. -/
theorem ne_zero_putPort (h : r.InStep) (hz : (0 : UInt16) ∉ r.available)
    (port : UInt16) : (0 : UInt16) ∉ (portRangePutPort r port).available := by
  unfold portRangePutPort
  split
  · exact hz
  · rename_i hp
    intro hmem
    obtain ⟨i, hi, hi0⟩ := List.mem_map.mp hmem
    dsimp only at hi hi0
    -- the slot read is the one just written, or one that was available before
    by_cases hput : i = r.put
    · rw [hput, Function.update_self] at hi0
      exact hp hi0
    · rw [Function.update_of_ne hput] at hi0
      rw [cyclic_succ, ← h, List.mem_append, List.mem_singleton] at hi
      exact hz (List.mem_map.mpr ⟨i, hi.resolve_right hput, hi0⟩)

theorem ne_zero_getPort1 (hz : (0 : UInt16) ∉ r.available) :
    (0 : UInt16) ∉ (portRangeGetPort1 r).2.available := by
  by_cases h : r.avail = 0
  · rwa [getPort1_of_avail_eq_zero h]
  · rw [available_getPort1 h] at hz
    exact fun hmem => hz (List.mem_cons_of_mem _ hmem)

/-- A range with no zero among its ports answers zero only when it is
exhausted, and is then left as it is. -/
theorem getPort1_eq_zero (hz : (0 : UInt16) ∉ r.available)
    (h0 : (portRangeGetPort1 r).1 = 0) : (portRangeGetPort1 r).2 = r := by
  by_cases h : r.avail = 0
  · rw [getPort1_of_avail_eq_zero h]
  · rw [available_getPort1 h, h0] at hz
    exact absurd List.mem_cons_self hz

/-! ## Filling a range -/

/-- Putting one port after another appends them all, while slots are free. -/
theorem available_foldl_putPort (ps : List UInt16) (h : r.InStep)
    (hp : (0 : UInt16) ∉ ps) (hfree : r.avail + ps.length ≤ r.size) :
    (ps.foldl portRangePutPort r).available = r.available ++ ps
      ∧ (ps.foldl portRangePutPort r).InStep
      ∧ (ps.foldl portRangePutPort r).size = r.size := by
  induction ps generalizing r with
  | nil => exact ⟨(List.append_nil _).symm, h, rfl⟩
  | cons p ps ih =>
    have hp0 : p ≠ 0 := fun e => hp (e ▸ List.mem_cons_self)
    rw [List.length_cons] at hfree
    obtain ⟨ha, hs, hz⟩ := ih (h.putPort p) (fun hm => hp (List.mem_cons_of_mem _ hm))
      (by rw [avail_putPort hp0, size_putPort]; omega)
    rw [List.foldl_cons]
    refine ⟨?_, hs, hz.trans (size_putPort p)⟩
    rw [ha, available_putPort h hp0 (by omega), List.append_assoc]
    rfl

end PortRange

/-- The ports from `port1` to `port2` as a range stores them. -/
def portSlice (port1 port2 : UInt16) : List UInt16 :=
  (List.range' port1.toNat (port2.toNat + 1 - port1.toNat)).map
    (fun i => htons (UInt16.ofNat i))

theorem mem_portSlice {port1 port2 p : UInt16} :
    p ∈ portSlice port1 port2 ↔
      ∃ i, port1.toNat ≤ i ∧ i ≤ port2.toNat ∧ p = htons (UInt16.ofNat i) := by
  simp only [portSlice, List.mem_map, List.mem_range'_1]
  constructor
  · rintro ⟨i, hi, rfl⟩
    exact ⟨i, hi.1, by omega, rfl⟩
  · rintro ⟨i, h1, h2, rfl⟩
    exact ⟨i, ⟨h1, by omega⟩, rfl⟩

theorem length_portSlice (port1 port2 : UInt16) :
    (portSlice port1 port2).length = port2.toNat + 1 - port1.toNat := by
  rw [portSlice, List.length_map, List.length_range']

/-- Distinct port numbers are stored as distinct ports. -/
theorem nodup_portSlice (port1 port2 : UInt16) : (portSlice port1 port2).Nodup := by
  refine List.Nodup.map_on (fun i hi j hj hij => ?_) (List.nodup_range' _)
  rw [List.mem_range'_1] at hi hj
  have h2 := port2.toNat_lt
  have h := congrArg UInt16.toNat (htons_injective hij)
  rwa [toNat_ofNat_u16 (by omega), toNat_ofNat_u16 (by omega)] at h

theorem zero_notMem_portSlice {port1 port2 : UInt16} (h : 1 ≤ port1.toNat) :
    (0 : UInt16) ∉ portSlice port1 port2 := by
  intro hmem
  obtain ⟨i, hlo, hhi, hi⟩ := mem_portSlice.mp hmem
  have h2 := port2.toNat_lt
  have h0 := congrArg UInt16.toNat (htons_eq_zero.mp hi.symm)
  rw [toNat_ofNat_u16 (by omega)] at h0
  exact absurd h0 (by rw [UInt16.toNat_zero]; omega)

theorem portRangeInit_eq_foldl (range : PortRange) (port1 port2 : UInt16) :
    portRangeInit range port1 port2
      = (portSlice port1 port2).foldl portRangePutPort range := by
  rw [portRangeInit, portSlice, List.foldl_map]

/-- **A filled range holds its slice**, in order, with its counters in step and
one slot to spare. -/
theorem portRangeInit_create {port1 port2 : UInt16} (h : 1 ≤ port1.toNat)
    {n : ℕ} (hn : n = port2.toNat + 1 - port1.toNat) :
    (portRangeInit (portRangeCreate n) port1 port2).available = portSlice port1 port2
      ∧ (portRangeInit (portRangeCreate n) port1 port2).InStep
      ∧ (portRangeInit (portRangeCreate n) port1 port2).size = n + 1 := by
  rw [portRangeInit_eq_foldl]
  have hfree : (portRangeCreate n).avail + (portSlice port1 port2).length
      ≤ (portRangeCreate n).size := by
    rw [length_portSlice]
    show 0 + _ ≤ n + 1
    omega
  obtain ⟨ha, hs, hz⟩ := PortRange.available_foldl_putPort _
    (PortRange.inStep_create n) (zero_notMem_portSlice h) hfree
  exact ⟨by rw [ha, PortRange.available_create, List.nil_append], hs, hz⟩
