import Ustack.Descriptors

/-!
# All rings in one memory

Every process has a transmit and a receive ring on every adapter, and the kernel maps the memory
of all rings and the registers of all adapters into every process. So each driver can store to
every ring. That none does is a matter of the addresses: `driver_open` and
`adapter_queue_regs_desc_addr` give each ring its own page of descriptors and its own register,
and a call stores to its own alone.

First for any family of rings that are apart (`familySystem_safe`): each sees the stores of the
others as stores elsewhere. Then the rings of `driver_open` are apart, as many adapters and queues
as the kernel has (`driversSystem_safe`).
-/

/-! ## Rings that are apart -/

/-- **Rings that are apart**, from where their registers and their descriptors are: what one
stores to, no other reads. -/
structure RingsApart {κ : Type*} (size : ℕ) (place : κ → ℕ × ℕ) : Prop where
  /-- Descriptors and descriptors. -/
  desc : ∀ k k', k ≠ k' → chunksApart (size * sizeofAdvTxDesc) (place k).2 (place k').2
  /-- Registers and descriptors. -/
  cross : ∀ k k', (place k).1 + 8 ≤ (place k').2
    ∨ (place k').2 + size * sizeofAdvTxDesc ≤ (place k).1
  /-- Registers and registers. -/
  reg : ∀ k k', k ≠ k' → chunksApart 8 (place k).1 (place k').1

section Family

variable {κ : Type*} [DecidableEq κ] {f : κ → DescFormat} {size : ℕ} {place : κ → ℕ × ℕ}
  {s : κ → MappedRun} {k : κ}

/-- **Rings in one memory, under any interleaving.** What one stores, the others see. -/
def familySystem (f : κ → DescFormat) (size : ℕ) (place : κ → ℕ × ℕ) :
    System (κ → MappedRun) (κ × MappedLabel) where
  init s := (∀ k, (mappedSystem (f k) size).init (s k)
      ∧ ((s k).ring.tail_reg, (s k).ring.desc) = place k)
    ∧ ∀ k k', (s k).mem = (s k').mem
  step s l t := (mappedSystem (f l.1) size).step (s l.1) l.2 (t l.1)
    ∧ (∀ m packet, l.2 = .other m packet → m = (s l.1).mem)
    ∧ ∀ k, k ≠ l.1 → t k = { s k with mem := (t l.1).mem }

/-- **Every ring of a family**: alone it could be as it is, it is where it was put, and it sees
the memory of the others. -/
structure FamilyOk (f : κ → DescFormat) (size : ℕ) (place : κ → ℕ × ℕ) (s : κ → MappedRun) :
    Prop where
  /-- A run of the ring alone. -/
  reachable : ∀ k, (mappedSystem (f k) size).Reachable (s k)
  /-- Its register and its descriptors. -/
  place : ∀ k, ((s k).ring.tail_reg, (s k).ring.desc) = place k
  /-- The memory. -/
  shared : ∀ k k', (s k).mem = (s k').mem

/-- **A step of one ring stores to that ring**, which stays where it is. -/
theorem MappedRun.touches_step {f : DescFormat} (hs : 0 < size) {s : MappedRun}
    (h : (mappedSystem f size).Reachable s) {l : MappedLabel} (hl : s.Admits f l)
    (hother : ∀ m packet, l = .other m packet → m = s.mem) :
    s.ring.Touches s.mem (s.step l).ring (s.step l).mem := by
  obtain ⟨t, ht, hR⟩ := mappedSystem_refines hs h
  obtain ⟨m, packet, rfl, -⟩ | ⟨-, -, -, htouches⟩ :=
    hR.step_call (RingRun.inv_of_reachable hs ht) hl
  · rw [show s.step (.other m packet) = { s with mem := m, packet := packet } from rfl,
      hother m packet rfl]
    exact .refl _ _
  · exact htouches

theorem FamilyOk.step (hs : 0 < size) (hapart : RingsApart size place) {t : κ → MappedRun}
    {l : κ × MappedLabel} (h : FamilyOk f size place s)
    (hst : (familySystem f size place).step s l t) : FamilyOk f size place t := by
  obtain ⟨k, l⟩ := l
  obtain ⟨hstep, hother, hrest⟩ := hst
  dsimp only at hstep hother hrest
  have htouches : (s k).ring.Touches (s k).mem (t k).ring (t k).mem := by
    obtain ⟨-, hadmits, he⟩ := hstep
    rw [he]
    exact MappedRun.touches_step hs (h.reachable k) hadmits hother
  have hplace := fun k => Prod.mk.inj (h.place k)
  have hnum : (s k).ring.desc_num = size := by
    obtain ⟨r, hr, hR⟩ := mappedSystem_refines hs (h.reachable k)
    exact hR.ring.desc_num.symm.trans (RingRun.inv_of_reachable hs hr).desc_num
  refine ⟨fun j => ?_, fun j => ?_, fun j j' => ?_⟩
  · by_cases hj : j = k
    · subst hj
      exact (h.reachable j).step hstep
    · -- to this ring the step is a store elsewhere
      rw [hrest j hj]
      have hnum' : (s j).ring.desc_num = size := by
        obtain ⟨r, hr, hR⟩ := mappedSystem_refines hs (h.reachable j)
        exact hR.ring.desc_num.symm.trans (RingRun.inv_of_reachable hs hr).desc_num
      have hdesc := hapart.desc k j (Ne.symm hj)
      have hreg := hapart.reg k j (Ne.symm hj)
      have hcross := hapart.cross k j
      have hcross' := hapart.cross j k
      rw [← (hplace j).1, ← (hplace j).2, ← (hplace k).1, ← (hplace k).2] at *
      have hexited : (s j).exited = false := by
        obtain ⟨r, hr, hR⟩ := mappedSystem_refines hs (h.reachable j)
        exact hR.exited.symm.trans (RingRun.inv_of_reachable hs hr).exited
      refine (h.reachable j).step (l := .other (t k).mem (s j).packet)
        ⟨hexited, ⟨?_, ?_, fun _ _ _ => rfl⟩, rfl⟩
      · rw [h.shared j k, hnum']
        refine htouches.agree _ _ ?_ ?_
        · rw [hnum]
          exact hdesc.symm
        · exact hcross.symm
      · rw [h.shared j k]
        refine htouches.agree _ _ ?_ ?_
        · rw [hnum]
          exact hcross'.imp (fun h => by omega) id
        · exact hreg.symm.imp (fun h => by omega) id
  · by_cases hj : j = k
    · subst hj
      rw [htouches.tail_reg, htouches.desc]
      exact h.place j
    · rw [hrest j hj]
      exact h.place j
  · have hall : ∀ j, (t j).mem = (t k).mem := fun j => by
      by_cases hj : j = k
      · rw [hj]
      · rw [hrest j hj]
    exact (hall j).trans (hall j').symm

/-- **Rings that are apart do not disturb each other**: in every run of all of them, each is
what it would be alone. -/
theorem familySystem_safe (hs : 2 ≤ size) (hapart : RingsApart size place)
    (h : (familySystem f size place).Reachable s) :
    (∀ k, MappedSafe (f k) size (s k)) ∧ ∀ k k', (s k).mem = (s k').mem := by
  have hok := System.invariant (S := familySystem f size place) (P := FamilyOk f size place)
    (fun s hi => ⟨fun k => .of_init (hi.1 k).1, fun k => (hi.1 k).2, hi.2⟩)
    (fun s l t hs' hst => hs'.step (Nat.zero_lt_of_lt hs) hapart hst) h
  exact ⟨fun k => mappedSystem_safe hs (hok.reachable k), hok.shared⟩

/-- One ring takes a step, and the others see what it stored. -/
def stepAt (s : κ → MappedRun) (k : κ) (l : MappedLabel) (k' : κ) : MappedRun :=
  if k' = k then (s k).step l else { s k' with mem := ((s k).step l).mem }

/-- A driver calls while its process runs. -/
theorem step_stepAt {l : MappedLabel} (hrun : (s k).exited = false) (hl : (s k).Admits (f k) l)
    (hcall : ∀ m packet, l ≠ .other m packet) :
    (familySystem f size place).step s (k, l) (stepAt s k l) := by
  have hself : stepAt s k l k = (s k).step l := if_pos rfl
  refine ⟨⟨hrun, hl, hself⟩, fun m packet he => absurd he (hcall m packet), fun k' hk => ?_⟩
  show stepAt s k l k' = { s k' with mem := (stepAt s k l k).mem }
  rw [hself]
  exact if_neg hk

end Family

/-! ## The rings of `driver_open` -/

/-- The format of a direction. -/
def ringFormat (is_rx : Bool) : DescFormat := if is_rx then .rx else .tx

/-- The addresses `driver_open` finds for the ring of an adapter in the process of a queue:
those of its register and of its descriptors. None if there is no such adapter. -/
def driverRing (n num regs desc : ℕ) (i q : ℕ) (is_rx : Bool) : Option (ℕ × ℕ) :=
  ((driverOpen q (n, num) regs desc).adapters[i]?).map (adapterQueueRegsDescAddr · is_rx)

/-- The register of a queue, from the start of the registers of its adapter. -/
def tailRegister (q : ℕ) (is_rx : Bool) : ℕ := if is_rx then e1000Rdt q else e1000Tdt q

/-- The tail registers of an adapter are apart, and within its registers. -/
theorem tailRegister_apart : ∀ q < maxDescNum, ∀ b, tailRegister q b + 8 ≤ regBlockSize
    ∧ ∀ q' < maxDescNum, ∀ b', (q, b) ≠ (q', b') →
      tailRegister q b + 8 ≤ tailRegister q' b' ∨ tailRegister q' b' + 8 ≤ tailRegister q b := by
  decide

/-- **Where `driver_open` finds a ring**: a register among those of the adapter, and a page among
the descriptors. -/
theorem driverRing_eq {i n num q : ℕ} (hi : i < n) (hn : n ≤ maxAdapterNum)
    (hnum : num ≤ maxDescNum) (is_rx : Bool) (regs desc : ℕ) :
    driverRing n num regs desc i q is_rx
      = some (regs + i * regBlockSize + tailRegister q is_rx,
          desc + Host.block num i is_rx q * pageSize) := by
  have hn' : n % 256 = n := Nat.mod_eq_of_lt (lt_of_le_of_lt hn (by decide))
  obtain ⟨a, ha, hdesc⟩ := Host.driverOpen_offset (q := q) hi hn hnum is_rx regs desc
  have hloop := getElem?_driverOpenLoop q (num % 256) (hn'.symm ▸ hi : i < n % 256) 0 regs desc
  obtain rfl := Option.some.inj (ha.symm.trans hloop)
  rw [driverRing, ha, Option.map_some]
  refine congrArg some (Prod.ext ?_ hdesc)
  cases is_rx <;> rfl

section Drivers

variable {n num regs desc : ℕ}

/-- Where the ring of an adapter, a queue and a direction is. -/
def driverPlace (num regs desc : ℕ) (k : Fin n × Fin num × Bool) : ℕ × ℕ :=
  (regs + k.1 * regBlockSize + tailRegister k.2.1 k.2.2,
    desc + Host.block num k.1 k.2.2 k.2.1 * pageSize)

/-- Two rings have two pages. -/
theorem block_inj {k k' : Fin n × Fin num × Bool}
    (h : Host.block num k.1 k.2.2 k.2.1 = Host.block num k'.1 k'.2.2 k'.2.1) : k = k' := by
  have hlt : ∀ k : Fin n × Fin num × Bool, (if k.2.2 then num else 0) + k.2.1 < num + num :=
    fun k => by
      have := k.2.1.isLt
      split <;> omega
  obtain ⟨hi, hrest⟩ := grid_inj (hlt k) (hlt k') h
  obtain ⟨i, q, b⟩ := k
  obtain ⟨i', q', b'⟩ := k'
  have hq := q.isLt
  have hq' := q'.isLt
  dsimp only at hi hrest
  obtain rfl := Fin.ext hi
  cases b <;> cases b' <;> simp only [if_true, Bool.false_eq_true, if_false] at hrest
  · rw [Fin.ext (show q.val = q'.val by omega)]
  · omega
  · omega
  · rw [Fin.ext (show q.val = q'.val by omega)]

/-- A page is within the mapping of the descriptors. -/
theorem block_lt (k : Fin n × Fin num × Bool) :
    Host.block num k.1 k.2.2 k.2.1 < n * (num + num) := by
  have hq := k.2.1.isLt
  exact grid_lt k.1.isLt (by split <;> omega)

/-- **The rings of `driver_open` are apart**, where its two mappings are. -/
theorem ringsApart_driverPlace (hnum : num ≤ maxDescNum)
    (hmaps : regs + n * regBlockSize ≤ desc ∨ desc + n * (num + num) * pageSize ≤ regs) :
    RingsApart descNum (driverPlace (n := n) num regs desc) := by
  have hpage : descNum * sizeofAdvTxDesc = pageSize := rfl
  have hregs : ∀ k : Fin n × Fin num × Bool, tailRegister k.2.1 k.2.2 + 8 ≤ regBlockSize :=
    fun k => (tailRegister_apart _ (lt_of_lt_of_le k.2.1.isLt hnum) _).1
  refine ⟨fun k k' hk => ?_, fun k k' => ?_, fun k k' hk => ?_⟩
  · have hne := fun h => hk (block_inj h)
    have hchunks := @chunksApart_mul pageSize _ _ hne
    rw [hpage]
    unfold chunksApart at hchunks ⊢
    unfold driverPlace
    dsimp only
    omega
  · have hreg := hregs k
    have hrow := @mul_add_le_mul regBlockSize _ _ k.1.isLt
    have hblock := @mul_add_le_mul pageSize _ _ (block_lt k')
    rw [hpage]
    unfold driverPlace
    dsimp only
    obtain hmaps | hmaps := hmaps
    · exact Or.inl (by omega)
    · exact Or.inr (by omega)
  · obtain ⟨i, q, b⟩ := k
    obtain ⟨i', q', b'⟩ := k'
    have hreg := hregs (i, q, b)
    have hreg' := hregs (i', q', b')
    unfold driverPlace chunksApart
    dsimp only at hreg hreg' ⊢
    by_cases hi : i = i'
    · subst hi
      have hne : (q.val, b) ≠ (q'.val, b') := fun he => by
        obtain ⟨hq, rfl⟩ := Prod.mk.inj he
        exact hk (by rw [Fin.ext hq])
      have hapart := (tailRegister_apart q (lt_of_lt_of_le q.isLt hnum) b).2 q'
        (lt_of_lt_of_le q'.isLt hnum) b' hne
      omega
    · have hchunks := @chunksApart_mul regBlockSize _ _ (fun he => hi (Fin.ext he))
      unfold chunksApart at hchunks
      omega

/-- **The rings of all processes in one memory**, where `driver_open` finds them. -/
def driversSystem (n num regs desc : ℕ) :
    System (Fin n × Fin num × Bool → MappedRun) ((Fin n × Fin num × Bool) × MappedLabel) where
  init s := (∀ k, (mappedSystem (ringFormat k.2.2) descNum).init (s k)
      ∧ driverRing n num regs desc k.1 k.2.1 k.2.2
        = some ((s k).ring.tail_reg, (s k).ring.desc))
    ∧ ∀ k k', (s k).mem = (s k').mem
  step := (familySystem (fun k => ringFormat k.2.2) descNum (driverPlace num regs desc)).step

/-- **No driver disturbs another.** With as many adapters and queues as the kernel has, and the
registers mapped apart from the descriptors, in every run of all the drivers and the NICs every
ring of every process is safe: its register holds its tail, and the descriptors its NIC has not
written back describe its frames. -/
theorem driversSystem_safe (hn : n ≤ maxAdapterNum) (hnum : num ≤ maxDescNum)
    (hmaps : regs + n * regBlockSize ≤ desc ∨ desc + n * (num + num) * pageSize ≤ regs)
    {s : Fin n × Fin num × Bool → MappedRun} (h : (driversSystem n num regs desc).Reachable s) :
    (∀ k, MappedSafe (ringFormat k.2.2) descNum (s k)) ∧ ∀ k k', (s k).mem = (s k').mem := by
  refine familySystem_safe (f := fun k => ringFormat k.2.2) (by decide)
    (ringsApart_driverPlace hnum hmaps) ?_
  obtain ⟨s₀, ls, ⟨hinit, hshared⟩, hrun⟩ := h
  refine ⟨s₀, ls, ⟨fun k => ⟨(hinit k).1, ?_⟩, hshared⟩, ?_⟩
  · have hring := (hinit k).2
    rw [driverRing_eq k.1.isLt hn hnum] at hring
    exact (Option.some.inj hring).symm
  · induction hrun with
    | nil => exact .nil
    | snoc _ hst ih => exact ih.snoc hst

/-- The rings at the start, the registers before the descriptors. -/
def driversStart (n num : ℕ) (k : Fin n × Fin num × Bool) : MappedRun :=
  ⟨MappedRing.ringCreate (driverPlace num 0 (n * regBlockSize) k).1
    (driverPlace num 0 (n * regBlockSize) k).2 descNum, fun _ => 0,
    fun _ => Packet.received 0 0 [], [], [], false⟩

theorem reachable_driversStart (hn : n ≤ maxAdapterNum) (hnum : num ≤ maxDescNum) :
    (driversSystem n num 0 (n * regBlockSize)).Reachable (driversStart n num) := by
  have hapart : RingsApart descNum (driverPlace (n := n) num 0 (n * regBlockSize)) :=
    ringsApart_driverPlace hnum (Or.inl (by omega))
  have hzero : ∀ f desc, descDone f (fun _ => 0) desc = false := fun f desc => by
    cases f <;> simp [descDone, load32]
  refine .of_init ⟨fun k => ⟨⟨⟨show descNum ≤ 2 ^ 32 by decide, hapart.cross k k⟩, rfl,
    fun i _ => hzero _ _, ?_, rfl, rfl, rfl⟩, ?_⟩, fun _ _ => rfl⟩
  · simp [driversStart, loadNat]
  · rw [driverRing_eq k.1.isLt hn hnum]
    rfl

/-- A driver calls. -/
theorem reachable_stepAt {s : Fin n × Fin num × Bool → MappedRun}
    (h : (driversSystem n num regs desc).Reachable s) {k : Fin n × Fin num × Bool}
    {l : MappedLabel} (hrun : (s k).exited = false) (hl : (s k).Admits (ringFormat k.2.2) l)
    (hcall : ∀ m packet, l ≠ .other m packet) :
    (driversSystem n num regs desc).Reachable (stepAt s k l) := by
  have hstep : (familySystem (fun k => ringFormat k.2.2) descNum
      (driverPlace num regs desc)).step s (k, l) (stepAt s k l) := step_stepAt hrun hl hcall
  exact h.step hstep

/-- The receive ring of a process, on the only adapter. -/
def rxRing (q : Fin 2) : Fin 1 × Fin 2 × Bool := (⟨0, Nat.one_pos⟩, q, true)

/-- Two processes: both receive rings are given a packet, one after the other. -/
def bothAllocated : Fin 1 × Fin 2 × Bool → MappedRun :=
  stepAt (stepAt (driversStart 1 2) (rxRing ⟨0, Nat.two_pos⟩) (.alloc [0x7000]))
    (rxRing ⟨1, Nat.one_lt_two⟩) (.alloc [0x8000])

theorem reachable_bothAllocated :
    (driversSystem 1 2 0 (1 * regBlockSize)).Reachable bothAllocated := by
  have hstart := @reachable_driversStart 1 2 (by decide) (by decide)
  have hcall : ∀ pool m packet, MappedLabel.alloc pool ≠ .other m packet :=
    fun _ _ _ => MappedLabel.noConfusion
  -- the second process still runs after the step of the first
  have hruns : (stepAt (driversStart 1 2) (rxRing ⟨0, Nat.two_pos⟩) (.alloc [0x7000])
      (rxRing ⟨1, Nat.one_lt_two⟩)).exited = false := by
    rw [stepAt, if_neg (by decide)]
    rfl
  have hfirst := @reachable_stepAt 1 2 0 _ _ hstart (rxRing ⟨0, Nat.two_pos⟩) (.alloc [0x7000])
    rfl rfl (hcall _)
  exact reachable_stepAt hfirst hruns rfl (hcall _)

/-- Each first descriptor has its packet. -/
theorem driversSystem_safe_bothAllocated :
    (bothAllocated (rxRing ⟨0, Nat.two_pos⟩)).ring.buffer 0 = some 0x7000
      ∧ (bothAllocated (rxRing ⟨1, Nat.one_lt_two⟩)).ring.buffer 0 = some 0x8000
      ∧ ∀ k, MappedSafe (ringFormat k.2.2) descNum (bothAllocated k) :=
  ⟨by decide +kernel, by decide +kernel, (driversSystem_safe (by decide) (by decide)
    (Or.inl (by decide)) reachable_bothAllocated).1⟩

end Drivers
