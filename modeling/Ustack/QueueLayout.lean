import Ustack.LfQueue
import Ustack.PacketMemory

/-!
# The queues in shared memory

`lfq_module_init` of `src/lf_queue.c` and the part of `init` of `src/main.c` that
cuts the shared memory in two. The `n * n` queues stand row after row at the
start of the memory, each in a slot of whole cache lines; the queue in row `r`
and column `c` carries packets from process `c` to process `r`, so a process
receives on its row and sends on its column. All of it is computed by each
process alone, in `int`, from its own start address.

Behind the queues, from the next page on, is the memory of the packets
(`init`). Nothing checks that the sizes fit in an `int`; that they do is the
assumption `FitsInt`.
-/

/-! ## Sizes -/

/-- `ALIGN_BYTES`. -/
def alignBytes : Int32 := 64

/-- The size of `struct lf_queue`: `head` and `tail` are each at the start of a cache line. -/
def sizeofLfQueue : UInt64 := 192

/-- `lf_queue_aligned_size`. -/
def lfQueueAlignedSize (desc_num : Int32) : Int32 :=
  let align := alignBytes
  let size := intOfSize (sizeofLfQueue + 8 * sizeOfInt desc_num)
  let align_size := (size + align - 1) / align * align
  align_size

/-- `lf_queue_num`. -/
def lfQueueNum (n : Int32) : Int32 := n * n

/-- `__lfq_module_size`, on a system with pages of a size. -/
def lfqModuleSize (getpagesize n desc_num : Int32) : Int32 :=
  let size := lfQueueAlignedSize desc_num
  let total := size * lfQueueNum n
  let pagesize := sizeOfInt getpagesize
  intOfSize ((sizeOfInt total + pagesize - 1) / pagesize * pagesize)

/-! ## Initialising the queues -/

/-- `struct lfq`: the queues as one process sees them. -/
structure Lfq where
  /-- The number of processes. -/
  nproc : Int32
  /-- The process. -/
  id : Int32
  /-- The number of slots of a queue. -/
  desc_num : Int32
  /-- The bytes of all queues. -/
  module_size : Int32
  /-- The bytes of one queue. -/
  lf_queue_size : Int32
  /-- The address of the first queue. -/
  start : UInt64
  /-- The queues it receives on, by sender. -/
  recv_queue : List UInt64
  /-- The queues it sends on, by receiver. -/
  send_queue : List UInt64

/-- The shared memory of the queues, by offset. -/
abbrev SharedQueues := UInt64 → LfQueue UInt64

/-- The queue at an offset is made empty. -/
def SharedQueues.create (shared : SharedQueues) (desc_num : ℕ) (off : UInt64) : SharedQueues :=
  Function.update shared off (lfqQueueCreateInit desc_num (shared off).desc)

/-- `lfq_queue_create_init`: the address of a queue, which is made empty. -/
def lfqQueueCreateInitAt (q : Lfq) (row colum : Int32) (shared : SharedQueues) :
    UInt64 × SharedQueues :=
  let lq := q.start + sizeOfInt ((row * q.nproc + colum) * q.lf_queue_size)
  (lq, shared.create q.desc_num.toNatClampNeg (lq - q.start))

/-- A turn of the loop of `lfq_module_init`. -/
def lfqInitTurn (s : Lfq × SharedQueues) (i : ℕ) : Lfq × SharedQueues :=
  let (lfq, shared) := s
  let i := Int32.ofNat i
  let (recv, shared) := lfqQueueCreateInitAt lfq lfq.id i shared
  let (send, shared) := lfqQueueCreateInitAt lfq i lfq.id shared
  ({ lfq with
      recv_queue := lfq.recv_queue ++ [recv]
      send_queue := lfq.send_queue ++ [send] }, shared)

/-- `lfq_module_init`; `malloc` is whether there is memory for the three allocations. -/
def lfqModuleInit (getpagesize : Int32) (malloc : Bool) (n my_id desc_num : Int32)
    (start : UInt64) (shared : SharedQueues) : Option (Lfq × SharedQueues) :=
  if n = 0 ∨ start = 0 ∨ my_id < 0 ∨ n ≤ my_id ∨ desc_num ≤ 0 then none
  else if malloc = false then none
  else
    let lfq : Lfq := {
      nproc := n
      id := my_id
      desc_num := desc_num
      module_size := lfqModuleSize getpagesize n desc_num
      lf_queue_size := lfQueueAlignedSize desc_num
      start := start
      recv_queue := []
      send_queue := [] }
    some ((List.range n.toNatClampNeg).foldl lfqInitTurn (lfq, shared))

/-- The bytes between queues: whole cache lines. -/
def queueStride (d : ℕ) : ℕ := (192 + 8 * d + 63) / 64 * 64

/-- The bytes of all queues, in whole pages. -/
def lfqTotalSize (pagesize n d : ℕ) : ℕ :=
  (queueStride d * (n * n) + pagesize - 1) / pagesize * pagesize

/-- All queues fit in the pages. -/
theorem le_lfqTotalSize {pagesize : ℕ} (hp : 0 < pagesize) (n d : ℕ) :
    queueStride d * (n * n) ≤ lfqTotalSize pagesize n d := by
  unfold lfqTotalSize
  generalize queueStride d * (n * n) = total
  have hmod := Nat.mod_lt (total + pagesize - 1) hp
  have hdiv := Nat.div_add_mod (total + pagesize - 1) pagesize
  rw [Nat.mul_comm] at hdiv
  omega

theorem lfQueueAlignedSize_spec {desc_num : Int32} {d : ℕ} (hd : IntIs desc_num d)
    (h : queueStride d ≤ intMax) : IntIs (lfQueueAlignedSize desc_num) (queueStride d) := by
  have hmax : intMax = 2147483647 := rfl
  have hbytes : 192 + 8 * d ≤ queueStride d := by
    unfold queueStride
    omega
  have hdmax := hd.le_intMax
  have hsize : (sizeofLfQueue + 8 * sizeOfInt desc_num).toNat = 192 + 8 * d := by
    rw [UInt64.toNat_add, UInt64.toNat_mul, hd.toNat_sizeOfInt, show sizeofLfQueue.toNat = 192 from
      rfl, show (8 : UInt64).toNat = 8 from rfl]
    omega
  have hint : IntIs (intOfSize (sizeofLfQueue + 8 * sizeOfInt desc_num)) (192 + 8 * d) := by
    rw [← hsize]
    exact intIs_intOfSize (by omega)
  have h63 : IntIs (intOfSize (sizeofLfQueue + 8 * sizeOfInt desc_num) + 64 - 1)
      (192 + 8 * d + 63) := by
    have hassoc : ∀ x : Int32, x + 64 - 1 = x + 63 := fun x => by grind
    rw [hassoc]
    refine hint.add rfl ?_
    -- a multiple of 64 below `INT_MAX` leaves room for 63
    unfold queueStride at h
    omega
  have h64 : IntIs alignBytes 64 := rfl
  exact (h63.div h64).mul h64 h

/-- The size of the module before it is converted to `int`. -/
theorem toNat_lfqModuleSize {getpagesize nproc desc_num : Int32} {pagesize n d : ℕ}
    (hp : IntIs getpagesize pagesize) (hpos : 0 < pagesize) (hn : IntIs nproc n)
    (hn1 : 0 < n) (hd : IntIs desc_num d) (h : queueStride d * (n * n) ≤ intMax) :
    ((sizeOfInt (lfQueueAlignedSize desc_num * lfQueueNum nproc)
      + sizeOfInt getpagesize - 1) / sizeOfInt getpagesize * sizeOfInt getpagesize).toNat
      = lfqTotalSize pagesize n d := by
  have hnn : 0 < n * n := Nat.mul_pos hn1 hn1
  have hstride : queueStride d ≤ intMax := (Nat.le_mul_of_pos_right _ hnn).trans h
  have hstride1 : 0 < queueStride d := by
    unfold queueStride
    omega
  have hnum : IntIs (lfQueueNum nproc) (n * n) :=
    hn.mul hn ((Nat.le_mul_of_pos_left _ hstride1).trans h)
  have hall : IntIs (lfQueueAlignedSize desc_num * lfQueueNum nproc) (queueStride d * (n * n)) :=
    (lfQueueAlignedSize_spec hd hstride).mul hnum h
  have hpmax := hp.le_intMax
  have hmax : intMax = 2147483647 := rfl
  have hsum : (sizeOfInt (lfQueueAlignedSize desc_num * lfQueueNum nproc)
      + sizeOfInt getpagesize - 1).toNat = queueStride d * (n * n) + pagesize - 1 := by
    rw [UInt64.toNat_sub, UInt64.toNat_add, hall.toNat_sizeOfInt, hp.toNat_sizeOfInt,
      show (1 : UInt64).toNat = 1 from rfl]
    omega
  have hle : lfqTotalSize pagesize n d ≤ queueStride d * (n * n) + pagesize - 1 :=
    Nat.div_mul_le_self _ _
  rw [UInt64.toNat_mul, UInt64.toNat_div, hsum, hp.toNat_sizeOfInt]
  exact Nat.mod_eq_of_lt (by unfold lfqTotalSize at hle; omega)

/-- **The size of the module**, if it fits. -/
theorem lfqModuleSize_spec {getpagesize nproc desc_num : Int32} {pagesize n d : ℕ}
    (hp : IntIs getpagesize pagesize) (hpos : 0 < pagesize) (hn : IntIs nproc n)
    (hn1 : 0 < n) (hd : IntIs desc_num d) (h : lfqTotalSize pagesize n d ≤ intMax) :
    IntIs (lfqModuleSize getpagesize nproc desc_num) (lfqTotalSize pagesize n d) := by
  have hsize := toNat_lfqModuleSize hp hpos hn hn1 hd ((le_lfqTotalSize hpos n d).trans h)
  show IntIs (intOfSize _) _
  rw [← hsize]
  exact intIs_intOfSize (by rw [hsize]; exact h)

/-- Where the queues fit and their pages do not, the size of the module is negative: it is
returned as an `int`. -/
theorem lfqModuleSize_neg {getpagesize nproc desc_num : Int32} {pagesize n d : ℕ}
    (hp : IntIs getpagesize pagesize) (hpos : 0 < pagesize) (hn : IntIs nproc n)
    (hn1 : 0 < n) (hd : IntIs desc_num d) (htotal : queueStride d * (n * n) ≤ intMax)
    (h : intMax < lfqTotalSize pagesize n d) :
    (lfqModuleSize getpagesize nproc desc_num).toInt < 0 := by
  have hmax : intMax = 2147483647 := rfl
  have hpmax := hp.le_intMax
  have hle : lfqTotalSize pagesize n d ≤ queueStride d * (n * n) + pagesize - 1 :=
    Nat.div_mul_le_self _ _
  have hsize := toNat_lfqModuleSize hp hpos hn hn1 hd htotal
  show (intOfSize _).toInt < 0
  rw [toInt_intOfSize (by omega), hsize, Int.bmod_def]
  split <;> omega

/-! ## The addresses -/

/-- The offset of the queue in a row and column. -/
def queueOffset (n d r c : ℕ) : ℕ := (r * n + c) * queueStride d

/-- The queues are within the pages. -/
theorem queueOffset_add_le {pagesize n d r c : ℕ} (hp : 0 < pagesize) (hr : r < n) (hc : c < n) :
    queueOffset n d r c + queueStride d ≤ lfqTotalSize pagesize n d := by
  refine (mul_add_le_mul (grid_lt hr hc)).trans ?_
  rw [Nat.mul_comm]
  exact le_lfqTotalSize hp n d

/-- **The queues of a process are set up in numbers that fit**: what its fields hold, and that
all queues fit in an `int`. -/
structure Lfq.Fits (q : Lfq) (pagesize n a d : ℕ) : Prop where
  /-- The page size is not zero. -/
  pagesize_pos : 0 < pagesize
  /-- The number of processes. -/
  nproc : IntIs q.nproc n
  /-- The process. -/
  id : IntIs q.id a
  /-- It is one of them. -/
  id_lt : a < n
  /-- The number of slots. -/
  desc_num : IntIs q.desc_num d
  /-- The bytes of a queue. -/
  lf_queue_size : IntIs q.lf_queue_size (queueStride d)
  /-- The bytes of all queues fit. -/
  total : lfqTotalSize pagesize n d ≤ intMax

section Loop

variable {q : Lfq} {pagesize n a d : ℕ}

/-- A queue is at its offset. -/
theorem Lfq.Fits.createInitAt (h : q.Fits pagesize n a d) {row colum : Int32} {r c : ℕ}
    (hr : IntIs row r) (hc : IntIs colum c) (hrn : r < n) (hcn : c < n) (shared : SharedQueues) :
    lfqQueueCreateInitAt q row colum shared
      = (q.start + UInt64.ofNat (queueOffset n d r c),
        shared.create d (UInt64.ofNat (queueOffset n d r c))) := by
  have hend := (queueOffset_add_le h.pagesize_pos hrn hcn (d := d)).trans h.total
  have hoff : queueOffset n d r c ≤ intMax := by omega
  have hidx : r * n + c ≤ intMax := by
    refine le_trans (Nat.le_mul_of_pos_right _ ?_) hoff
    unfold queueStride
    omega
  have hrow : r * n ≤ intMax := (Nat.le_add_right _ _).trans hidx
  have hint : IntIs ((row * q.nproc + colum) * q.lf_queue_size) (queueOffset n d r c) :=
    (((hr.mul h.nproc hrow).add hc hidx).mul h.lf_queue_size hoff)
  have hmax : intMax = 2147483647 := rfl
  have hsize : sizeOfInt ((row * q.nproc + colum) * q.lf_queue_size)
      = UInt64.ofNat (queueOffset n d r c) := by
    rw [← UInt64.toNat_inj, hint.toNat_sizeOfInt, UInt64.toNat_ofNat', Nat.mod_eq_of_lt (by omega)]
  have hdesc : q.desc_num.toNatClampNeg = d := by
    rw [← Int32.toNat_toInt, h.desc_num, Int.toNat_natCast]
  rw [lfqQueueCreateInitAt, hsize, hdesc, address_sub_start]

/-- The queues of a process after some turns: those it receives on are its row, those it sends
on its column. -/
def Lfq.withQueues (q : Lfq) (n a d k : ℕ) : Lfq :=
  { q with
    recv_queue := (List.range k).map (fun i => q.start + UInt64.ofNat (queueOffset n d a i))
    send_queue := (List.range k).map (fun i => q.start + UInt64.ofNat (queueOffset n d i a)) }

/-- **A turn of the loop.** -/
theorem Lfq.Fits.turn (h : q.Fits pagesize n a d) {k : ℕ} (hk : k < n) (shared : SharedQueues) :
    lfqInitTurn (q.withQueues n a d k, shared) k
      = (q.withQueues n a d (k + 1),
        (shared.create d (UInt64.ofNat (queueOffset n d a k))).create d
          (UInt64.ofNat (queueOffset n d k a))) := by
  have hk32 : IntIs (Int32.ofNat k) k := by
    have hn := h.nproc.le_intMax
    rw [IntIs, ← Int32.ofInt_eq_ofNat, Int32.toInt_ofInt_of_le (by omega)]
    unfold intMax at hn
    omega
  have hfits : (q.withQueues n a d k).Fits pagesize n a d := { h with }
  have hrecv := hfits.createInitAt h.id hk32 h.id_lt hk shared
  have hsend := hfits.createInitAt hk32 h.id hk h.id_lt
    (shared.create d (UInt64.ofNat (queueOffset n d a k)))
  have hid : (q.withQueues n a d k).id = q.id := rfl
  rw [lfqInitTurn]
  dsimp only
  rw [hid, hrecv]
  dsimp only
  rw [hsend, Lfq.withQueues, Lfq.withQueues, List.range_succ, List.map_append, List.map_append]
  rfl

/-- **All turns of the loop.** -/
theorem Lfq.Fits.loop (h : q.Fits pagesize n a d) (shared : SharedQueues) {k : ℕ} (hk : k ≤ n) :
    ((List.range k).foldl lfqInitTurn (q.withQueues n a d 0, shared)).1
      = q.withQueues n a d k := by
  induction k with
  | zero => rfl
  | succ k ih =>
    rw [List.range_succ, List.foldl_append, List.foldl_cons, List.foldl_nil]
    have hprev := ih (by omega)
    rw [← Prod.mk.eta (p := (List.range k).foldl lfqInitTurn (q.withQueues n a d 0, shared)), hprev,
      h.turn (by omega)]

/-- The offset of a queue a process uses in some turns. -/
def Uses (n a d k : ℕ) (off : UInt64) : Prop :=
  ∃ i < k, off = UInt64.ofNat (queueOffset n d a i) ∨ off = UInt64.ofNat (queueOffset n d i a)

theorem SharedQueues.create_self (shared : SharedQueues) (d : ℕ) (off : UInt64) :
    shared.create d off off = lfqQueueCreateInit d (shared off).desc := Function.update_self ..

theorem SharedQueues.create_of_ne (shared : SharedQueues) (d : ℕ) {off off' : UInt64}
    (h : off' ≠ off) : shared.create d off off' = shared off' := Function.update_of_ne h ..

/-- **The queues of a process are made empty, and no others are touched.** -/
theorem Lfq.Fits.loop_shared (h : q.Fits pagesize n a d) (shared : SharedQueues) {k : ℕ}
    (hk : k ≤ n) (off : UInt64) :
    (Uses n a d k off → ((List.range k).foldl lfqInitTurn (q.withQueues n a d 0, shared)).2 off
        = lfqQueueCreateInit d (shared off).desc)
      ∧ (¬ Uses n a d k off →
        ((List.range k).foldl lfqInitTurn (q.withQueues n a d 0, shared)).2 off = shared off) := by
  induction k with
  | zero => exact ⟨fun ⟨i, hi, _⟩ => absurd hi (Nat.not_lt_zero i), fun _ => rfl⟩
  | succ k ih =>
    obtain ⟨hused, hunused⟩ := ih (by omega)
    rw [List.range_succ, List.foldl_append, List.foldl_cons, List.foldl_nil]
    set s := (List.range k).foldl lfqInitTurn (q.withQueues n a d 0, shared) with hs
    have hprev : s = (q.withQueues n a d k, s.2) := Prod.ext (h.loop shared (by omega)) rfl
    rw [hprev, h.turn (by omega)]
    -- what was made empty before is made empty again
    have hdesc : (s.2 off).desc = (shared off).desc := by
      by_cases hu : Uses n a d k off
      · rw [hused hu]
        rfl
      · rw [hunused hu]
    dsimp only
    constructor
    · rintro ⟨i, hi, hoff⟩
      by_cases hcol : off = UInt64.ofNat (queueOffset n d k a)
      · rw [← hcol, SharedQueues.create_self]
        by_cases hrow : off = UInt64.ofNat (queueOffset n d a k)
        · rw [← hrow, SharedQueues.create_self, ← hdesc]
          rfl
        · rw [SharedQueues.create_of_ne _ _ hrow, hdesc]
      · rw [SharedQueues.create_of_ne _ _ hcol]
        by_cases hrow : off = UInt64.ofNat (queueOffset n d a k)
        · rw [← hrow, SharedQueues.create_self, hdesc]
        · rw [SharedQueues.create_of_ne _ _ hrow]
          have hik : i ≠ k := fun he => hoff.elim (fun h' => hrow (he ▸ h')) (fun h' => hcol (he ▸ h'))
          exact hused ⟨i, by omega, hoff⟩
    · intro hu
      have hcol : off ≠ UInt64.ofNat (queueOffset n d k a) := fun he =>
        hu ⟨k, Nat.lt_succ_self k, Or.inr he⟩
      have hrow : off ≠ UInt64.ofNat (queueOffset n d a k) := fun he =>
        hu ⟨k, Nat.lt_succ_self k, Or.inl he⟩
      rw [SharedQueues.create_of_ne _ _ hcol, SharedQueues.create_of_ne _ _ hrow]
      exact hunused (fun ⟨i, hi, hoff⟩ => hu ⟨i, by omega, hoff⟩)

end Loop

/-! ## All processes -/

/-- An entry of an array filled by a loop. -/
theorem getElem?_map_range {α : Type*} {f : ℕ → α} {n i : ℕ} {x : α} :
    ((List.range n).map f)[i]? = some x ↔ i < n ∧ f i = x := by
  rw [List.getElem?_map, Option.map_eq_some_iff]
  constructor
  · rintro ⟨j, hj, rfl⟩
    obtain ⟨hi, rfl⟩ := List.getElem?_eq_some_iff.mp hj
    rw [List.length_range] at hi
    exact ⟨hi, by rw [List.getElem_range]⟩
  · rintro ⟨hi, rfl⟩
    exact ⟨i, List.getElem?_range hi, rfl⟩

/-- The memory of the queues and where each process maps it. -/
structure QueueMemory where
  /-- The number of processes. -/
  nproc : Int32
  /-- The number of slots of a queue. -/
  desc_num : Int32
  /-- The size of a page. -/
  pagesize : Int32
  /-- Its address in each process. -/
  start : Int32 → UInt64

namespace QueueMemory

variable {M : QueueMemory} {a b : Int32} {q q' : Lfq}

/-- A process initialised its queues, over whatever the memory held. -/
def HasQueues (M : QueueMemory) (a : Int32) (q : Lfq) : Prop :=
  ∃ shared shared', lfqModuleInit M.pagesize true M.nproc a M.desc_num (M.start a) shared
    = some (q, shared')

/-- The offset in the memory of an address of a process. -/
def offset (M : QueueMemory) (a : Int32) (addr : UInt64) : ℕ := (addr - M.start a).toNat

/-- The number of processes, of slots and of bytes of a page. -/
def n (M : QueueMemory) : ℕ := M.nproc.toNatClampNeg

@[inherit_doc n] def d (M : QueueMemory) : ℕ := M.desc_num.toNatClampNeg

/-- The bytes of all queues, in whole pages. -/
def totalSize (M : QueueMemory) : ℕ := lfqTotalSize M.pagesize.toNatClampNeg M.n M.d

/-- The total size fits in an `int`. -/
def FitsInt (M : QueueMemory) : Prop := 0 < M.pagesize ∧ M.totalSize ≤ intMax

theorem FitsInt.pagesize_pos (h : M.FitsInt) : 0 < M.pagesize.toNatClampNeg := by
  have h0 : IntIs 0 0 := rfl
  exact (h0.lt_iff (IntIs.of_nonneg (Int32.le_of_lt h.1))).mp h.1

/-- What a process that initialised its queues has: the loop of `lfq_module_init` began with
numbers that fit. -/
theorem exists_fits (hfits : M.FitsInt) {shared shared' : SharedQueues}
    (h : lfqModuleInit M.pagesize true M.nproc a M.desc_num (M.start a) shared
      = some (q, shared')) :
    Mapped.IsProcess M.nproc a ∧ ∃ q₀ : Lfq,
      q₀.Fits M.pagesize.toNatClampNeg M.n a.toNatClampNeg M.d ∧ q₀.start = M.start a
        ∧ IntIs q₀.module_size M.totalSize
        ∧ (List.range M.n).foldl lfqInitTurn
          (q₀.withQueues M.n a.toNatClampNeg M.d 0, shared) = (q, shared') := by
  unfold lfqModuleInit at h
  split at h
  · exact absurd h (by simp)
  · rename_i hcheck
    push Not at hcheck
    obtain ⟨-, -, ha0, han, hd0⟩ := hcheck
    rw [Int32.not_lt] at ha0
    rw [Int32.not_le] at han hd0
    have ha : IntIs a a.toNatClampNeg := IntIs.of_nonneg ha0
    have hn : IntIs M.nproc M.n := IntIs.of_nonneg (Int32.le_trans ha0 (Int32.le_of_lt han))
    have hlt : a.toNatClampNeg < M.n := (ha.lt_iff hn).mp han
    have hd : IntIs M.desc_num M.d := IntIs.of_nonneg (Int32.le_of_lt hd0)
    have hp : IntIs M.pagesize M.pagesize.toNatClampNeg :=
      IntIs.of_nonneg (Int32.le_of_lt hfits.1)
    have hpos := hfits.pagesize_pos
    have hn1 : 0 < M.n := Nat.zero_lt_of_lt hlt
    have htotal := (le_lfqTotalSize hpos M.n M.d).trans hfits.2
    have hstride : queueStride M.d ≤ intMax :=
      (Nat.le_mul_of_pos_right _ (Nat.mul_pos hn1 hn1)).trans htotal
    refine ⟨⟨ha0, han⟩, {
      nproc := M.nproc
      id := a
      desc_num := M.desc_num
      module_size := lfqModuleSize M.pagesize M.nproc M.desc_num
      lf_queue_size := lfQueueAlignedSize M.desc_num
      start := M.start a
      recv_queue := []
      send_queue := [] },
      ⟨hpos, hn, ha, hlt, hd, lfQueueAlignedSize_spec hd hstride, hfits.2⟩, rfl,
      lfqModuleSize_spec hp hpos hn hn1 hd hfits.2, ?_⟩
    exact Option.some.inj h

/-- **What a process that initialised its queues has.** -/
theorem HasQueues.spec (h : M.HasQueues a q) (hfits : M.FitsInt) :
    IntIs a a.toNatClampNeg ∧ a.toNatClampNeg < M.n ∧ IntIs q.module_size M.totalSize
      ∧ q.recv_queue = (List.range M.n).map
        (fun i => M.start a + UInt64.ofNat (queueOffset M.n M.d a.toNatClampNeg i))
      ∧ q.send_queue = (List.range M.n).map
        (fun i => M.start a + UInt64.ofNat (queueOffset M.n M.d i a.toNatClampNeg)) := by
  obtain ⟨shared, shared', h⟩ := h
  obtain ⟨hproc, q₀, hq₀, hstart, hsize, hloop⟩ := exists_fits hfits h
  have hid : IntIs a a.toNatClampNeg := IntIs.of_nonneg hproc.1
  have hq := hq₀.loop shared le_rfl
  rw [hloop] at hq
  dsimp only at hq
  subst hq
  rw [← hstart]
  exact ⟨hid, hq₀.id_lt, hsize, rfl, rfl⟩

/-- An offset in the memory is that of the address there. -/
theorem offset_start_add (hfits : M.FitsInt) {r c : ℕ} (hr : r < M.n) (hc : c < M.n) :
    M.offset a (M.start a + UInt64.ofNat (queueOffset M.n M.d r c))
      = queueOffset M.n M.d r c := by
  have hle : queueOffset M.n M.d r c + queueStride M.d ≤ intMax :=
    (queueOffset_add_le hfits.pagesize_pos hr hc).trans hfits.2
  have hmax : intMax = 2147483647 := rfl
  rw [offset, address_sub_start, UInt64.toNat_ofNat', Nat.mod_eq_of_lt (by omega)]

/-- A queue a process sends on: the one in the row of the receiver. -/
theorem HasQueues.send_queue (h : M.HasQueues a q) (hfits : M.FitsInt) {i : ℕ} {addr : UInt64}
    (hi : q.send_queue[i]? = some addr) :
    i < M.n ∧ M.offset a addr = queueOffset M.n M.d i a.toNatClampNeg := by
  obtain ⟨-, hlt, -, -, hsend⟩ := h.spec hfits
  rw [hsend] at hi
  obtain ⟨hin, rfl⟩ := getElem?_map_range.mp hi
  exact ⟨hin, offset_start_add hfits hin hlt⟩

/-- A queue a process receives on: the one in the column of the sender. -/
theorem HasQueues.recv_queue (h : M.HasQueues a q) (hfits : M.FitsInt) {i : ℕ} {addr : UInt64}
    (hi : q.recv_queue[i]? = some addr) :
    i < M.n ∧ M.offset a addr = queueOffset M.n M.d a.toNatClampNeg i := by
  obtain ⟨-, hlt, -, hrecv, -⟩ := h.spec hfits
  rw [hrecv] at hi
  obtain ⟨hin, rfl⟩ := getElem?_map_range.mp hi
  exact ⟨hin, offset_start_add hfits hlt hin⟩

/-- **Initialising makes the queues of the process empty** and leaves the others alone: what
the run of a queue begins with. -/
theorem created (hfits : M.FitsInt) {shared shared' : SharedQueues}
    (h : lfqModuleInit M.pagesize true M.nproc a M.desc_num (M.start a) shared
      = some (q, shared')) (off : UInt64) :
    (Uses M.n a.toNatClampNeg M.d M.n off →
        shared' off = lfqQueueCreateInit M.d (shared off).desc)
      ∧ (¬ Uses M.n a.toNatClampNeg M.d M.n off → shared' off = shared off) := by
  obtain ⟨-, q₀, hq₀, -, -, hloop⟩ := exists_fits hfits h
  have hshared := hq₀.loop_shared shared le_rfl off
  rwa [hloop] at hshared

end QueueMemory

/-- The size of the module is the size of all queues in whole pages. -/
theorem QueueMemory.HasQueues.module_size {M : QueueMemory} {a : Int32} {q : Lfq}
    (h : M.HasQueues a q) (hfits : M.FitsInt) :
    q.module_size.toInt = M.totalSize ∧ (sizeOfInt q.module_size).toNat = M.totalSize := by
  obtain ⟨-, -, hsize, -⟩ := h.spec hfits
  exact ⟨hsize, hsize.toNat_sizeOfInt⟩
