import Ustack.PendingList

/-!
# Starting up

Every process initialises the queues it receives from and the queues it sends to, so each
queue is initialised from both ends, one store after the other, and nobody waits for the
others (`lfq_module_init`, and `init` of `src/main.c`). The model takes the stores of all
processes, the two of `INIT_LIST_HEAD` among them, and the traffic of those that have
returned, store by store too, in any order. Each process maps the memory at an address of
its own.

A process that is late initialises queues that are in use. Its stores are harmless as long
as they find the queue as they leave it: nothing published when the tail is cleared, nothing
pending when the `next` of the list is. The `prev` of the list may be cleared while packets are
pending, which loses nothing yet: the packet sent next is then linked behind the head, and what
is lost are those before it (`StartUp.Harmless`).
-/

variable {α : Type*}

/-- The processes that start, and the queues between them. -/
structure StartUp (α : Type*) where
  /-- How many stores of `lfq_module_init` each process has done. -/
  pc : ℕ → ℕ
  /-- The queues, by receiver and sender. -/
  link : ℕ → ℕ → SharedLink α

namespace StartUp

/-- The queue of a store of `lfq_module_init`: five stores to `recv_queue[i]`, then five to
`send_queue[i]`. -/
def target (p k : ℕ) : ℕ × ℕ := if k / 5 % 2 = 0 then (p, k / 10) else (k / 10, p)

/-- `lfq_module_init` has returned. -/
def Returned (n : ℕ) (s : StartUp α) (p : ℕ) : Prop := s.pc p = 10 * n

/-- The sender has done a store to the queue itself, when it initialised `send_queue[r]`. -/
def BySender (s : StartUp α) (r c field : ℕ) : Prop := 10 * r + 5 + field < s.pc c

/-- The state with one queue replaced. -/
def setLink (s : StartUp α) (r c : ℕ) (link : SharedLink α) : StartUp α :=
  { s with link := fun r' c' => if r' = r ∧ c' = c then link else s.link r' c' }

/-- A packet is on no pending list of a process. -/
def Free (s : StartUp α) (c : ℕ) (pkt : α) : Prop :=
  ∀ r l, SharedLink.Meets (s.link r c).next ((s.link r c).next none) l → pkt ∉ l

end StartUp

/-- What happens next at start-up. -/
inductive StartUpLabel (α : Type*)
  /-- A process takes a step of `lfq_module_init`. -/
  | init (p : ℕ)
  /-- A process sends to, flushes or receives from a queue. -/
  | traffic (r c : ℕ) (l : LfqLabel α)

/-- The end of a queue a step is taken at. -/
def LfqLabel.process (r c : ℕ) : LfqLabel α → ℕ
  | .send _ => c
  | .put => c
  | .get => r

variable [DecidableEq α]

/-- The stores of `lfq_queue_create_init`, in order, by a process that maps the memory at
`start`. -/
def lfqQueueStore (start desc_num field : ℕ) (s : SharedLink α) : SharedLink α :=
  match field with
  | 0 => { s with size := desc_num }
  | 1 => { s with head := 0 }
  | 2 => { s with tail := 0 }
  | 3 => { s with next := Function.update s.next none (.head start) }
  | _ => { s with prev := Function.update s.prev none (.head start) }

/-- Together they make an initial queue. -/
theorem lfqQueueStore_all (start desc_num : ℕ) (s : SharedLink α) :
    ((List.range 5).foldl (fun s field => lfqQueueStore start desc_num field s) s).withList []
      = { s.withList [] with queue := lfqQueueCreateInit desc_num s.desc } := rfl

/-- The next store of `lfq_module_init`. -/
def StartUp.initStep (start : ℕ → ℕ) (desc_num : ℕ) (s : StartUp α) (p : ℕ) : StartUp α :=
  let k := s.pc p
  let (r, c) := StartUp.target p k
  { s.setLink r c (lfqQueueStore (start p) desc_num (k % 5) (s.link r c)) with
    pc := Function.update s.pc p (k + 1) }

/-- **Processes starting up**, over shared memory that holds anything, and those that have
started already. A packet that is sent is on no list. -/
def startUpSystem (α : Type*) [DecidableEq α] (start : ℕ → ℕ) (n desc_num : ℕ) :
    System (StartUp α) (StartUpLabel α) where
  init s := (∀ p, s.pc p = 0) ∧ ∀ r c, (s.link r c).sender = .put .idle
    ∧ (s.link r c).get = .idle ∧ (s.link r c).lhead = [] ∧ (s.link r c).received = []
    ∧ (s.link r c).sent = []
  step s l t :=
    match l with
    | .init p => p < n ∧ s.pc p < 10 * n ∧ t = s.initStep start desc_num p
    | .traffic r c l => r < n ∧ c < n ∧ s.Returned n (l.process r c) ∧
      match l with
      | .send pkt => (s.link r c).sender = .put .idle ∧ s.Free c pkt
        ∧ t = s.setLink r c ((s.link r c).sendStep pkt)
      | .put => t = s.setLink r c ((s.link r c).senderStep (start c))
      | .get => t = s.setLink r c (s.link r c).getStep

namespace StartUp

/-- **A step does not clear what is queued.** If the process at the other end has started, a
store to the tail finds nothing published. If the sender has done its own store to a link of
the list head, a store of the receiver to `next` finds what it stores, and one to `prev` is
made by a process that maps the memory where the sender does. And a packet is linked where the
list ends. -/
def Harmless (start : ℕ → ℕ) (n : ℕ) (s : StartUp α) : StartUpLabel α → Prop
  | .init p =>
    let k := s.pc p
    let link := s.link (target p k).1 (target p k).2
    (k % 5 = 2 → s.Returned n (k / 10) → link.head = link.tail)
      ∧ (k / 5 % 2 = 0 → k % 5 = 3 → s.BySender p (k / 10) 3 → link.next none = .head (start p))
      ∧ (k / 5 % 2 = 0 → k % 5 = 4 → s.BySender p (k / 10) 4 → start p = start (k / 10))
  | .traffic r c .put => (s.link r c).LinksAtEnd (start c)
  | .traffic _ _ _ => True

/-! ## What start-up keeps -/

/-- A number has what `lfq_queue_create_init` stores. -/
def FieldOk (desc_num field : ℕ) (s : SharedLink α) : Prop :=
  match field with
  | 0 => s.size = desc_num
  | 1 => s.head = 0
  | 2 => s.tail = 0
  | _ => True

theorem fieldOk_store (start desc_num field : ℕ) (s : SharedLink α) :
    FieldOk desc_num field (lfqQueueStore start desc_num field s) := by
  match field with
  | 0 => rfl
  | 1 => rfl
  | 2 => rfl
  | _ + 3 => exact trivial

theorem FieldOk.store {desc_num field : ℕ} {s : SharedLink α} (h : FieldOk desc_num field s)
    (start field' : ℕ) : FieldOk desc_num field (lfqQueueStore start desc_num field' s) := by
  match field, field' with
  | 0, 0 | 1, 1 | 2, 2 => exact fieldOk_store _ _ _ _
  | 0, 1 | 0, 2 | 0, 3 | 0, _ + 4 => exact h
  | 1, 0 | 1, 2 | 1, 3 | 1, _ + 4 => exact h
  | 2, 0 | 2, 1 | 2, 3 | 2, _ + 4 => exact h
  | _ + 3, _ => exact trivial

/-- A store to a number that finds what it stores changes nothing. -/
theorem FieldOk.store_eq {desc_num field : ℕ} {s : SharedLink α} (h : FieldOk desc_num field s)
    (hf : field < 3) (start : ℕ) : lfqQueueStore start desc_num field s = s := by
  obtain ⟨size, head, tail, desc, next, prev, sender, get, lhead, received, sent⟩ := s
  match field, hf with
  | 0, _ | 1, _ | 2, _ =>
    obtain rfl := h
    rfl

/-- A store to a link of the list head leaves the rest. -/
theorem withList_store {start desc_num field : ℕ} (hf : 3 ≤ field) (s : SharedLink α)
    (l : List α) : (lfqQueueStore start desc_num field s).withList l = s.withList l := by
  match field, hf with
  | 3, _ => rfl
  | _ + 4, _ => rfl

theorem next_store (start desc_num field : ℕ) (s : SharedLink α) :
    (lfqQueueStore start desc_num field s).next none
      = if field = 3 then .head start else s.next none := by
  match field with
  | 0 | 1 | 2 | _ + 4 => rfl
  | 3 => exact Function.update_self none _ s.next

theorem prev_store {start desc_num field : ℕ} (hf : field < 5) (s : SharedLink α) :
    (lfqQueueStore start desc_num field s).prev none
      = if field = 4 then .head start else s.prev none := by
  match field, hf with
  | 0, _ | 1, _ | 2, _ | 3, _ => rfl
  | 4, _ => exact Function.update_self none _ s.prev

/-- A store leaves the ends of the queue where they are. -/
theorem ends_store (start desc_num field : ℕ) (s : SharedLink α) :
    (lfqQueueStore start desc_num field s).sender = s.sender
      ∧ (lfqQueueStore start desc_num field s).get = s.get
      ∧ (lfqQueueStore start desc_num field s).lhead = s.lhead
      ∧ (lfqQueueStore start desc_num field s).received = s.received
      ∧ (lfqQueueStore start desc_num field s).sent = s.sent
      ∧ (lfqQueueStore start desc_num field s).desc = s.desc := by
  match field with
  | 0 | 1 | 2 | 3 | _ + 4 => exact ⟨rfl, rfl, rfl, rfl, rfl, rfl⟩

/-- One of the ends has done a store: the receiver when it initialised `recv_queue[c]`, or the
sender. -/
def Stored (s : StartUp α) (r c field : ℕ) : Prop :=
  10 * c + field < s.pc r ∨ s.BySender r c field

/-- **The invariant of a queue at start-up.** -/
structure LinkInv (start : ℕ → ℕ) (n desc_num : ℕ) (s : StartUp α) (r c : ℕ) : Prop where
  /-- While both ends start up, the numbers they have stored are there. -/
  setup : ¬ s.Returned n r → ¬ s.Returned n c →
    ∀ field < 3, s.Stored r c field → FieldOk desc_num field (s.link r c)
  /-- While the sender starts up, the `next` it has stored is there. -/
  next : ¬ s.Returned n c → s.BySender r c 3 → (s.link r c).next none = .head (start c)
  /-- While the sender starts up, the `prev` it has stored is there. -/
  prev : ¬ s.Returned n c → s.BySender r c 4 → (s.link r c).prev none = .head (start c)
  /-- When one has started, the queue works; when the sender has, its list is a sequence. -/
  running : s.Returned n r ∨ s.Returned n c →
    ∃ l, (s.Returned n c → (s.link r c).Lists (start c) l)
      ∧ ∃ T W R, ((s.link r c).withList l).Inv desc_num T W R
  /-- A receiver that has not started has received nothing. -/
  receiver : ¬ s.Returned n r →
    (s.link r c).get = .idle ∧ (s.link r c).received = [] ∧ (s.link r c).lhead = []
  /-- A sender that has not started has sent nothing. -/
  sender : ¬ s.Returned n c → (s.link r c).sender = .put .idle ∧ (s.link r c).sent = []

/-- **The invariant of start-up.** -/
structure Inv (start : ℕ → ℕ) (n desc_num : ℕ) (s : StartUp α) : Prop where
  /-- Every queue between processes is as it should be. -/
  link : ∀ r < n, ∀ c < n, LinkInv start n desc_num s r c
  /-- Nothing is sent anywhere else. -/
  other : ∀ r c, ¬ (r < n ∧ c < n) → (s.link r c).sent = []

section Step

variable {start : ℕ → ℕ} {n desc_num p r c : ℕ} {s : StartUp α}

theorem link_initStep (start : ℕ → ℕ) (desc_num : ℕ) (s : StartUp α) (p r c : ℕ) :
    (s.initStep start desc_num p).link r c = if (r, c) = target p (s.pc p) then
      lfqQueueStore (start p) desc_num (s.pc p % 5) (s.link r c) else s.link r c := by
  unfold initStep setLink
  dsimp only
  generalize target p (s.pc p) = q
  obtain ⟨r', c'⟩ := q
  by_cases h : (r, c) = (r', c')
  · obtain ⟨rfl, rfl⟩ := Prod.mk.inj h
    rw [if_pos rfl, if_pos ⟨rfl, rfl⟩]
  · rw [if_neg h, if_neg (fun hc => h (Prod.ext hc.1 hc.2))]

/-- A step of an initialisation leaves the ends of the queues where they are. -/
theorem ends_initStep (start : ℕ → ℕ) (desc_num : ℕ) (s : StartUp α) (p r c : ℕ) :
    ((s.initStep start desc_num p).link r c).sender = (s.link r c).sender
      ∧ ((s.initStep start desc_num p).link r c).get = (s.link r c).get
      ∧ ((s.initStep start desc_num p).link r c).lhead = (s.link r c).lhead
      ∧ ((s.initStep start desc_num p).link r c).received = (s.link r c).received
      ∧ ((s.initStep start desc_num p).link r c).sent = (s.link r c).sent
      ∧ ((s.initStep start desc_num p).link r c).desc = (s.link r c).desc := by
  rw [link_initStep]
  split
  · exact ends_store _ _ _ _
  · exact ⟨rfl, rfl, rfl, rfl, rfl, rfl⟩

theorem returned_initStep (hpc : s.pc p < 10 * n) (x : ℕ) :
    (s.initStep start desc_num p).Returned n x
      ↔ s.Returned n x ∨ x = p ∧ s.pc p + 1 = 10 * n := by
  show Function.update s.pc p (s.pc p + 1) x = 10 * n ↔ s.pc x = 10 * n ∨ _
  by_cases hx : x = p
  · subst hx
    rw [Function.update_self]
    omega
  · rw [Function.update_of_ne hx]
    exact (or_iff_left (fun h => hx h.1)).symm

/-- A process initialises the queues it is at an end of. -/
theorem target_eq_iff {k : ℕ} :
    (r, c) = target p k
      ↔ r = p ∧ c = k / 10 ∧ k / 5 % 2 = 0 ∨ c = p ∧ r = k / 10 ∧ k / 5 % 2 = 1 := by
  have hmod : ¬ k / 5 % 2 = 0 ↔ k / 5 % 2 = 1 := by omega
  unfold target
  by_cases h : k / 5 % 2 = 0
  · rw [if_pos h, Prod.mk.injEq]
    simp [h]
  · rw [if_neg h, Prod.mk.injEq]
    simp [hmod.mp h, and_comm]

/-- What the sender has stored after a store. -/
theorem bySender_initStep (start : ℕ → ℕ) (desc_num : ℕ) (s : StartUp α) (p r c : ℕ) {field : ℕ}
    (hf : field < 5) : (s.initStep start desc_num p).BySender r c field
      ↔ s.BySender r c field
        ∨ c = p ∧ r = s.pc p / 10 ∧ s.pc p / 5 % 2 = 1 ∧ s.pc p % 5 = field := by
  show 10 * r + 5 + field < Function.update s.pc p (s.pc p + 1) c ↔ _
  unfold BySender
  by_cases hc : c = p
  · subst hc
    rw [Function.update_self]
    omega
  · rw [Function.update_of_ne hc]
    exact (or_iff_left (fun h => hc h.1)).symm

/-- What is stored after a store. -/
theorem stored_initStep (start : ℕ → ℕ) (desc_num : ℕ) (s : StartUp α) (p r c : ℕ) {field : ℕ}
    (hf : field < 5) : (s.initStep start desc_num p).Stored r c field
      ↔ s.Stored r c field ∨ (r, c) = target p (s.pc p) ∧ s.pc p % 5 = field := by
  show 10 * c + field < Function.update s.pc p (s.pc p + 1) r
    ∨ 10 * r + 5 + field < Function.update s.pc p (s.pc p + 1) c ↔ _
  rw [target_eq_iff]
  unfold Stored BySender
  by_cases hr : r = p <;> by_cases hc : c = p
  · subst hr hc
    rw [Function.update_self]
    omega
  · subst hr
    rw [Function.update_self, Function.update_of_ne hc]
    omega
  · subst hc
    rw [Function.update_self, Function.update_of_ne hr]
    omega
  · rw [Function.update_of_ne hr, Function.update_of_ne hc]
    omega

omit [DecidableEq α] in
/-- Nothing has been received from a queue one of whose ends starts up. -/
theorem LinkInv.received_eq (h : LinkInv start n desc_num s r c)
    (hstart : ¬ s.Returned n r ∨ ¬ s.Returned n c) {l : List α} {T W R : ℕ}
    (hinv : ((s.link r c).withList l).Inv desc_num T W R) : (s.link r c).received = [] := by
  obtain hr | hc := hstart
  · exact (h.receiver hr).2.1
  · have hreceived : (s.link r c).received
        = (s.link r c).sent.take (s.link r c).received.length := hinv.received_eq
    rw [hreceived, (h.sender hc).2, List.take_nil]

omit [DecidableEq α] in
/-- A process that initialises is at one end of the queue, another at the other. -/
theorem target_ends (hpc : s.pc p < 10 * n) (ht : (r, c) = target p (s.pc p)) :
    (¬ s.Returned n r ∨ ¬ s.Returned n c)
      ∧ (s.Returned n r ∨ s.Returned n c ↔ s.Returned n (s.pc p / 10)) := by
  have hp : ¬ s.Returned n p := Nat.ne_of_lt hpc
  obtain ⟨rfl, rfl, -⟩ | ⟨rfl, rfl, -⟩ := target_eq_iff.mp ht
  · exact ⟨Or.inl hp, or_iff_right hp⟩
  · exact ⟨Or.inr hp, or_iff_left hp⟩

/-- **A harmless store to a number of a queue in use changes nothing.** -/
theorem Harmless.store_eq (hh : s.Harmless start n (.init p)) (hpc : s.pc p < 10 * n)
    (h : LinkInv start n desc_num s r c) (ht : (r, c) = target p (s.pc p))
    (hrun : s.Returned n r ∨ s.Returned n c) (hf : s.pc p % 5 < 3) :
    lfqQueueStore (start p) desc_num (s.pc p % 5) (s.link r c) = s.link r c := by
  obtain ⟨hstart, hother⟩ := target_ends hpc ht
  obtain ⟨htail, -, -⟩ := hh
  rw [← ht] at htail
  obtain ⟨l, -, T, W, R, hinv⟩ := h.running hrun
  have hhead : (s.link r c).head = 0 := by
    have hhead : (s.link r c).head = (s.link r c).received.length % desc_num := hinv.head_eq
    rw [hhead, h.received_eq hstart hinv, List.length_nil, Nat.zero_mod]
  suffices hfield : FieldOk desc_num (s.pc p % 5) (s.link r c) by
    rw [hfield.store_eq hf]
  generalize s.pc p % 5 = field at htail hf
  match field, hf with
  | 0, _ => exact hinv.size_eq
  | 1, _ => exact hhead
  | 2, _ => exact (htail rfl (hother.mp hrun)).symm.trans hhead

/-- **A harmless store to a queue in use leaves the queue**, but for the links of its list. -/
theorem Harmless.withList_eq (hh : s.Harmless start n (.init p)) (hpc : s.pc p < 10 * n)
    (h : LinkInv start n desc_num s r c) (hrun : s.Returned n r ∨ s.Returned n c) (l : List α) :
    ((s.initStep start desc_num p).link r c).withList l = (s.link r c).withList l := by
  rw [link_initStep]
  split
  · rename_i ht
    by_cases hf : s.pc p % 5 < 3
    · rw [hh.store_eq hpc h ht hrun hf]
    · exact withList_store (Nat.not_lt.mp hf) _ l
  · rfl

/-- A store that is the sender's own is a step of its initialisation. -/
theorem bySender_of_initStep {field : ℕ} (hf : field < 5)
    (hby : (s.initStep start desc_num p).BySender r c field)
    (hno : ¬ ((r, c) = target p (s.pc p) ∧ c = p ∧ s.pc p % 5 = field)) :
    s.BySender r c field := by
  refine ((bySender_initStep _ _ _ _ _ _ hf).mp hby).resolve_right ?_
  rintro ⟨rfl, hr, hrole, hfield⟩
  exact hno ⟨target_eq_iff.mpr (Or.inr ⟨rfl, hr, hrole⟩), rfl, hfield⟩

/-- **A harmless store keeps the `next` the sender has stored**, while it starts up. -/
theorem Harmless.next_eq (hh : s.Harmless start n (.init p)) (h : LinkInv start n desc_num s r c)
    (hc : ¬ s.Returned n c) (hby : (s.initStep start desc_num p).BySender r c 3) :
    ((s.initStep start desc_num p).link r c).next none = .head (start c) := by
  rw [link_initStep]
  by_cases ht : (r, c) = target p (s.pc p)
  · rw [if_pos ht, next_store]
    by_cases hfield : s.pc p % 5 = 3
    · rw [if_pos hfield]
      by_cases hcp : c = p
      · rw [hcp]
      · -- the receiver stores what is there
        have hold := bySender_of_initStep (by decide) hby (fun hno => hcp hno.2.1)
        obtain ⟨rfl, rfl, hrole⟩ | ⟨hno, -⟩ := target_eq_iff.mp ht
        · have hfound := hh.2.1 hrole hfield hold
          rw [← ht] at hfound
          rw [← hfound]
          exact h.next hc hold
        · exact absurd hno hcp
    · rw [if_neg hfield]
      exact h.next hc (bySender_of_initStep (by decide) hby (fun hno => hfield hno.2.2))
  · rw [if_neg ht]
    exact h.next hc (bySender_of_initStep (by decide) hby (fun hno => ht hno.1))

/-- **A harmless store keeps the `prev` the sender has stored**, while it starts up. -/
theorem Harmless.prev_eq (hh : s.Harmless start n (.init p)) (h : LinkInv start n desc_num s r c)
    (hc : ¬ s.Returned n c) (hby : (s.initStep start desc_num p).BySender r c 4) :
    ((s.initStep start desc_num p).link r c).prev none = .head (start c) := by
  rw [link_initStep]
  by_cases ht : (r, c) = target p (s.pc p)
  · rw [if_pos ht, prev_store (Nat.mod_lt _ (by decide))]
    by_cases hfield : s.pc p % 5 = 4
    · rw [if_pos hfield]
      by_cases hcp : c = p
      · rw [hcp]
      · -- the receiver maps the memory where the sender does
        have hold := bySender_of_initStep (by decide) hby (fun hno => hcp hno.2.1)
        obtain ⟨rfl, rfl, hrole⟩ | ⟨hno, -⟩ := target_eq_iff.mp ht
        · rw [hh.2.2 hrole hfield hold]
        · exact absurd hno hcp
    · rw [if_neg hfield]
      exact h.prev hc (bySender_of_initStep (by decide) hby (fun hno => hfield hno.2.2))
  · rw [if_neg ht]
    exact h.prev hc (bySender_of_initStep (by decide) hby (fun hno => ht hno.1))

/-- **A harmless store keeps the list** of a sender that has started. -/
theorem Harmless.lists (hh : s.Harmless start n (.init p)) (hpc : s.pc p < 10 * n)
    (hr : r < n) (h : LinkInv start n desc_num s r c) (hc : s.Returned n c) {l : List α}
    (hl : (s.link r c).Lists (start c) l) :
    ((s.initStep start desc_num p).link r c).Lists (start c) l := by
  rw [link_initStep]
  split
  · rename_i ht
    obtain ⟨rfl, hck, hrole⟩ | ⟨rfl, -, -⟩ := target_eq_iff.mp ht
    · have hby : ∀ field < 5, s.BySender r c field := by
        intro field hf
        show 10 * r + 5 + field < s.pc c
        rw [show s.pc c = 10 * n from hc]
        omega
      by_cases hf : s.pc r % 5 < 3
      · rw [hh.store_eq hpc h ht (Or.inr hc) hf]
        exact hl
      · obtain hfield | hfield : s.pc r % 5 = 3 ∨ s.pc r % 5 = 4 := by omega
        · -- `next` is stored as it is
          have hfound := hh.2.1 hrole hfield (hck ▸ hby 3 (by decide))
          rw [← ht] at hfound
          rw [hfield, lfqQueueStore, ← hfound, Function.update_eq_self]
          exact hl
        · have hstart := hh.2.2 hrole hfield (hck ▸ hby 4 (by decide))
          rw [hfield, hstart, ← hck]
          exact hl.update_prev
    · exact absurd hc (Nat.ne_of_lt hpc)
  · exact hl

/-- **A harmless store keeps the invariant.** -/
theorem Inv.init (hd : 0 < desc_num) (h : Inv start n desc_num s)
    (hh : s.Harmless start n (.init p)) (hpc : s.pc p < 10 * n) :
    Inv start n desc_num (s.initStep start desc_num p) := by
  refine ⟨fun r hr c hc => ?_, fun r c hno => ?_⟩
  · have hl := h.link r hr c hc
    obtain ⟨hsender, hget, hlhead, hreceived, hsent, -⟩ := ends_initStep start desc_num s p r c
    have hkeep : ∀ x, s.Returned n x → (s.initStep start desc_num p).Returned n x :=
      fun x hx => (returned_initStep hpc x).mpr (Or.inl hx)
    -- while both ends start up, the numbers stored are there after the store
    have hfields : ¬ s.Returned n r → ¬ s.Returned n c → ∀ field < 3,
        (s.initStep start desc_num p).Stored r c field →
          FieldOk desc_num field ((s.initStep start desc_num p).link r c) := by
      intro hr' hc' field hf hst
      rw [link_initStep]
      obtain hst | ⟨ht, hfield⟩ := (stored_initStep start desc_num s p r c (by omega)).mp hst
      · have hok := hl.setup hr' hc' field hf hst
        split
        · exact hok.store _ _
        · exact hok
      · rw [if_pos ht, hfield]
        exact fieldOk_store _ _ _ _
    -- when the sender returns its list is empty
    have hlast : ¬ s.Returned n c → (s.initStep start desc_num p).Returned n c →
        ((s.initStep start desc_num p).link r c).Lists (start c) [] := by
      intro hc' hret
      have hby : ∀ field < 5, (s.initStep start desc_num p).BySender r c field := by
        intro field hf
        show 10 * r + 5 + field < (s.initStep start desc_num p).pc c
        rw [show (s.initStep start desc_num p).pc c = 10 * n from hret]
        omega
      have hnext := hh.next_eq hl hc' (hby 3 (by decide))
      have hprev := hh.prev_eq hl hc' (hby 4 (by decide))
      unfold SharedLink.Lists
      rw [hsender, (hl.sender hc').1]
      exact ⟨⟨List.nodup_nil, hnext, fun x hx => absurd hx (by simp)⟩, Or.inl hprev⟩
    refine ⟨fun hr' hc' => hfields (mt (hkeep r) hr') (mt (hkeep c) hc'),
      fun hc' => hh.next_eq hl (mt (hkeep c) hc'), fun hc' => hh.prev_eq hl (mt (hkeep c) hc'),
      fun hrun => ?_, fun hr' => ?_, fun hc' => ?_⟩
    · by_cases hold : s.Returned n r ∨ s.Returned n c
      · obtain ⟨l, hlists, T, W, R, hinv⟩ := hl.running hold
        refine ⟨l, fun hret => ?_, T, W, R, (hh.withList_eq hpc hl hold l).symm ▸ hinv⟩
        by_cases hc' : s.Returned n c
        · exact hh.lists hpc hr hl hc' (hlists hc')
        · -- nothing was sent
          have hnil : l = [] := by
            have hdrop : l = (s.link r c).sent.drop W := hinv.list_eq
            rw [hdrop, (hl.sender hc').2, List.drop_nil]
          rw [hnil]
          exact hlast hc' hret
      · -- the last store of one end: the queue is initial
        obtain ⟨hnr, hnc⟩ := not_or.mp hold
        have hall : ∀ field < 3, (s.initStep start desc_num p).Stored r c field := by
          intro field hf
          obtain hrun | hrun := hrun
          · refine Or.inl ?_
            rw [show (s.initStep start desc_num p).pc r = 10 * n from hrun]
            omega
          · refine Or.inr ?_
            show 10 * r + 5 + field < (s.initStep start desc_num p).pc c
            rw [show (s.initStep start desc_num p).pc c = 10 * n from hrun]
            omega
        have hok := fun field hf => hfields hnr hnc field hf (hall field hf)
        have hsize : ((s.initStep start desc_num p).link r c).size = desc_num := hok 0 (by decide)
        have hhead : ((s.initStep start desc_num p).link r c).head = 0 := hok 1 (by decide)
        have htail : ((s.initStep start desc_num p).link r c).tail = 0 := hok 2 (by decide)
        refine ⟨[], hlast hnc, 0, 0, 0, ?_⟩
        unfold SharedLink.withList
        rw [hsize, hhead, htail, hsender, hget, hlhead, hreceived, hsent, (hl.sender hnc).1,
          (hl.sender hnc).2, (hl.receiver hnr).1, (hl.receiver hnr).2.1, (hl.receiver hnr).2.2]
        exact LfqLink.inv_create hd _
    · rw [hget, hreceived, hlhead]
      exact hl.receiver (mt (hkeep r) hr')
    · rw [hsender, hsent]
      exact hl.sender (mt (hkeep c) hc')
  · rw [(ends_initStep start desc_num s p r c).2.2.2.2.1]
    exact h.other r c hno

end Step

section Traffic

variable {start : ℕ → ℕ} {n desc_num r c : ℕ} {s : StartUp α} {link : SharedLink α}

omit [DecidableEq α] in
/-- **A queue goes on** as one that works. -/
theorem Inv.setLink (h : Inv start n desc_num s) (hr : r < n) (hc : c < n)
    (hrun : s.Returned n r ∨ s.Returned n c)
    (hlink : ∃ l, (s.Returned n c → link.Lists (start c) l)
      ∧ ∃ T W R, (link.withList l).Inv desc_num T W R)
    (hreceiver : ¬ s.Returned n r → link.get = .idle ∧ link.received = [] ∧ link.lhead = [])
    (hsender : ¬ s.Returned n c → link.next = (s.link r c).next ∧ link.prev = (s.link r c).prev
      ∧ link.sender = .put .idle ∧ link.sent = []) :
    Inv start n desc_num (s.setLink r c link) := by
  have hall : ∀ r' c', (s.setLink r c link).link r' c'
      = if r' = r ∧ c' = c then link else s.link r' c' := fun _ _ => rfl
  refine ⟨fun r' hr' c' hc' => ?_, fun r' c' hno => ?_⟩
  · have hl := h.link r' hr' c' hc'
    by_cases heq : r' = r ∧ c' = c
    · obtain ⟨rfl, rfl⟩ := heq
      have hself : (s.setLink r' c' link).link r' c' = link := if_pos ⟨rfl, rfl⟩
      refine ⟨fun hr' hc' => absurd hrun (not_or.mpr ⟨hr', hc'⟩), fun hno hby => ?_,
        fun hno hby => ?_, fun _ => ?_, ?_, fun hno => ?_⟩ <;> rw [hself]
      · rw [(hsender hno).1]
        exact hl.next hno hby
      · rw [(hsender hno).2.1]
        exact hl.prev hno hby
      · exact hlink
      · exact hreceiver
      · exact (hsender hno).2.2
    · have hsame : (s.setLink r c link).link r' c' = s.link r' c' := if_neg heq
      exact ⟨hsame.symm ▸ hl.setup, hsame.symm ▸ hl.next, hsame.symm ▸ hl.prev,
        hsame.symm ▸ hl.running, hsame.symm ▸ hl.receiver, hsame.symm ▸ hl.sender⟩
  · rw [hall, if_neg (fun heq => hno (by rw [heq.1, heq.2]; exact ⟨hr, hc⟩))]
    exact h.other r' c' hno

omit [DecidableEq α] in
/-- The sender's steps do not move the receiver. -/
theorem consumer_eq {l l' : LfqLink α} (hst : SharedLink.SenderSteps desc_num l l') :
    l'.get = l.get ∧ l'.received = l.received ∧ l'.lhead = l.lhead := by
  obtain rfl | ⟨lab, hlab, hst⟩ := hst
  · exact ⟨rfl, rfl, rfl⟩
  · cases lab with
    | send pkt =>
      obtain ⟨-, rfl⟩ := hst
      exact ⟨rfl, rfl, rfl⟩
    | put =>
      rw [show l' = l.putStep from hst]
      unfold LfqLink.putStep
      cases l.put with
      | idle => exact ⟨rfl, rfl, rfl⟩
      | tail head => dsimp only; split <;> exact ⟨rfl, rfl, rfl⟩
      | body head tail i i_next count => dsimp only; split <;> exact ⟨rfl, rfl, rfl⟩
      | cas tail i => dsimp only; split <;> exact ⟨rfl, rfl, rfl⟩
      | failed => exact ⟨rfl, rfl, rfl⟩
    | get => exact absurd rfl hlab

omit [DecidableEq α] in
/-- **The sender goes on.** -/
theorem Inv.sender (h : Inv start n desc_num s) (hr : r < n) (hc : c < n)
    (hret : s.Returned n c)
    (hst : ∀ l, (s.link r c).Lists (start c) l → ∃ l', link.Lists (start c) l'
      ∧ SharedLink.SenderSteps desc_num ((s.link r c).withList l) (link.withList l')) :
    Inv start n desc_num (s.setLink r c link) := by
  obtain ⟨l, hlists, T, W, R, hinv⟩ := (h.link r hr c hc).running (Or.inr hret)
  obtain ⟨l', hlists', hsteps⟩ := hst l (hlists hret)
  obtain ⟨hget, hreceived, hlhead⟩ := consumer_eq hsteps
  refine h.setLink hr hc (Or.inr hret) ⟨l', fun _ => hlists', ?_⟩ (fun hno => ?_)
    (fun hno => absurd hret hno)
  · obtain hsame | ⟨lab, -, hstep⟩ := hsteps
    · rw [hsame]
      exact ⟨T, W, R, hinv⟩
    · exact hinv.step hstep
  · obtain ⟨hget', hreceived', hlhead'⟩ := (h.link r hr c hc).receiver hno
    exact ⟨hget.trans hget', hreceived.trans hreceived', hlhead.trans hlhead'⟩

omit [DecidableEq α] in
/-- The receiver's steps do not move the sender. -/
theorem producer_eq (s : SharedLink α) : s.getStep.next = s.next ∧ s.getStep.prev = s.prev
    ∧ s.getStep.sender = s.sender ∧ s.getStep.sent = s.sent := by
  refine ⟨rfl, rfl, rfl, ?_⟩
  show (s.withList []).getStep.sent = (s.withList []).sent
  exact (LfqLink.getStep_lhead _).2.1

/-- **Traffic at a queue that works keeps the invariant.** -/
theorem Inv.traffic {t : StartUp α} (h : Inv start n desc_num s) {l : LfqLabel α}
    (hh : s.Harmless start n (.traffic r c l))
    (hst : (startUpSystem α start n desc_num).step s (.traffic r c l) t) :
    Inv start n desc_num t := by
  obtain ⟨hr, hc, hret, hst⟩ := hst
  cases l with
  | send pkt =>
    obtain ⟨hidle, hfree, rfl⟩ := hst
    refine h.sender hr hc hret fun l hlists => ?_
    have hpkt : pkt ∉ l := by
      obtain ⟨l₀, hl, hl₀⟩ := hlists.chained
      have hhand : (s.link r c).atHand = [] := by
        unfold SharedLink.atHand
        rw [hidle]
      rw [hl, hhand, List.nil_append]
      exact hfree r l₀ hl₀.leads.meets
    obtain ⟨hlists', hsame⟩ := hlists.sendStep hidle hpkt
    exact ⟨l, hlists', Or.inl hsame⟩
  | put =>
    obtain rfl := hst
    exact h.sender hr hc hret fun l hlists => hlists.senderStep hh desc_num
  | get =>
    obtain rfl := hst
    obtain ⟨l, hlists, T, W, R, hinv⟩ := (h.link r hr c hc).running (Or.inl hret)
    obtain ⟨hnext, hprev, hsender, hsent⟩ := producer_eq (s.link r c)
    refine h.setLink hr hc (Or.inl hret) ⟨l, fun hc' => (hlists hc').getStep, ?_⟩
      (fun hno => absurd hret hno) (fun hno => ⟨hnext, hprev, ?_⟩)
    · rw [SharedLink.withList_getStep]
      exact hinv.step (show (lfqSystem α desc_num).step _ .get _ from rfl)
    · rw [hsender, hsent]
      exact (h.link r hr c hc).sender hno

end Traffic

section Runs

variable {start : ℕ → ℕ} {n desc_num : ℕ} {s t : StartUp α}

/-- **The invariant holds in every run of harmless steps.** -/
theorem inv_of_reachable (hd : 0 < desc_num)
    (h : ((startUpSystem α start n desc_num).restrict (Harmless start n)).Reachable s) :
    Inv start n desc_num s := by
  refine System.invariant (fun s hi => ?_) (fun s l t hinv hst => ?_) h
  · obtain ⟨hpc, hlink⟩ := hi
    have hstart : ∀ x < n, ¬ s.Returned n x := by
      intro x hx hret
      rw [Returned, hpc] at hret
      omega
    have hby : ∀ r c field, ¬ s.BySender r c field := by
      intro r c field hst
      rw [BySender, hpc] at hst
      exact absurd hst (Nat.not_lt_zero _)
    refine ⟨fun r hr c hc => ?_, fun r c _ => (hlink r c).2.2.2.2⟩
    obtain ⟨hsender, hget, hlhead, hreceived, hsent⟩ := hlink r c
    refine ⟨fun _ _ f _ hst => ?_, fun _ hst => absurd hst (hby r c 3),
      fun _ hst => absurd hst (hby r c 4), fun hrun => ?_, fun _ => ⟨hget, hreceived, hlhead⟩,
      fun _ => ⟨hsender, hsent⟩⟩
    · obtain hst | hst := hst
      · rw [hpc] at hst
        exact absurd hst (Nat.not_lt_zero _)
      · exact absurd hst (hby r c f)
    · exact absurd hrun (not_or.mpr ⟨hstart r hr, hstart c hc⟩)
  · obtain ⟨hh, hst⟩ := hst
    cases l with
    | init p =>
      obtain ⟨-, hpc, rfl⟩ := hst
      exact hinv.init hd hh hpc
    | traffic r c l => exact hinv.traffic hh hst

omit [DecidableEq α] in
/-- Nothing is lost where the invariant holds. -/
theorem Inv.kept (h : Inv start n desc_num s) (r c : ℕ) : (s.link r c).Kept := by
  have hnil : (s.link r c).sent = [] → (s.link r c).Kept := fun hsent =>
    ⟨[], trivial, by rw [hsent]; exact List.nil_subperm⟩
  by_cases hrc : r < n ∧ c < n
  · have hl := h.link r hrc.1 c hrc.2
    by_cases hc : s.Returned n c
    · obtain ⟨l, hlists, T, W, R, hinv⟩ := hl.running (Or.inr hc)
      exact (hlists hc).kept hinv
    · exact hnil (hl.sender hc).2
  · exact hnil (h.other r c hrc)

/-- **Clearing the tail** of a queue in use loses what is published. -/
theorem LinkInv.head_eq_tail {r c p : ℕ} (h : LinkInv start n desc_num s r c)
    (hstart : ¬ s.Returned n r ∨ ¬ s.Returned n c) (hrun : s.Returned n r ∨ s.Returned n c)
    (hkept : (lfqQueueStore (start p) desc_num 2 (s.link r c)).Kept) :
    (s.link r c).head = (s.link r c).tail := by
  obtain ⟨l, hlists, T, W, R, hinv⟩ := h.running hrun
  have hreceived := h.received_eq hstart hinv
  have hT : T ≤ W := hinv.tail_le
  have hW : W ≤ (s.link r c).sent.length := hinv.le_length
  have hhead : (s.link r c).head = 0 := by
    have hhead : (s.link r c).head = (s.link r c).received.length % desc_num := hinv.head_eq
    rw [hhead, hreceived, List.length_nil, Nat.zero_mod]
  suffices hzero : T = 0 by
    have htail : (s.link r c).tail = T % desc_num := hinv.tail_eq
    rw [hhead, htail, hzero, Nat.zero_mod]
  by_cases hc : s.Returned n c
  · have hpublished : ((s.link r c).withList []).published.length = T := by
      have hpub : ((s.link r c).withList []).published
          = ((s.link r c).sent.drop (s.link r c).received.length).take
            (T - (s.link r c).received.length) := hinv.published_eq
      rw [hpub, hreceived, List.length_take, List.length_drop, List.length_nil]
      omega
    have hcleared : ((lfqQueueStore (start p) desc_num 2 (s.link r c)).withList []).published
        = [] := by
      show (cyclic _ (s.link r c).head (cyclicDist _ (s.link r c).head 0)).map _ = []
      rw [hhead, cyclicDist, Nat.zero_add, Nat.sub_zero, Nat.mod_self]
      rfl
    obtain ⟨l', hmeets, hlen⟩ := hkept.length_le
    have hcount := SharedLink.length_sent hinv
    have hle := (hlists hc).length_le hmeets
    rw [hcleared, List.length_nil] at hlen
    have hlen' : (s.link r c).sent.length ≤ (s.link r c).received.length + 0
        + ((s.link r c).withList []).written.length + (s.link r c).atHand.length + l'.length := hlen
    omega
  · rw [(h.sender hc).2, List.length_nil] at hW
    omega

/-- **Clearing `next`** of a list in use loses what is pending. -/
theorem LinkInv.next_eq {r c p : ℕ} (h : LinkInv start n desc_num s r c)
    (hsame : start p = start c) (hby : s.BySender r c 3)
    (hkept : (lfqQueueStore (start p) desc_num 3 (s.link r c)).Kept) :
    (s.link r c).next none = .head (start p) := by
  by_cases hc : s.Returned n c
  · obtain ⟨l, hlists, T, W, R, hinv⟩ := h.running (Or.inr hc)
    obtain ⟨l', hmeets, hlen⟩ := hkept.length_le
    have hnil : l' = [] := by
      rw [next_store, if_pos rfl] at hmeets
      cases l' with
      | nil => rfl
      | cons x l' => exact absurd hmeets.1 (by simp)
    have hcount := SharedLink.length_sent hinv
    have hlen' : (s.link r c).sent.length ≤ (s.link r c).received.length
        + ((s.link r c).withList []).published.length
        + ((s.link r c).withList []).written.length + (s.link r c).atHand.length + l'.length := hlen
    obtain ⟨l₀, hl, hl₀⟩ := (hlists hc).chained
    rw [hnil, List.length_nil] at hlen'
    rw [hl, List.length_append] at hcount
    rw [hsame]
    exact hl₀.empty_iff.mpr (List.eq_nil_of_length_eq_zero (by omega))
  · rw [hsame]
    exact h.next hc hby

/-- **A step that is not harmless loses what it clears**, if all map the memory alike. -/
theorem Inv.harmless_of_kept (h : Inv start n desc_num s) (hsame : ∀ p q, start p = start q)
    {l : StartUpLabel α} (hst : (startUpSystem α start n desc_num).step s l t)
    (hkept : ∀ r c, (t.link r c).Kept) : s.Harmless start n l := by
  cases l with
  | init p =>
    obtain ⟨hp, hpc, rfl⟩ := hst
    generalize ht : target p (s.pc p) = q
    obtain ⟨r, c⟩ := q
    have hk : s.pc p / 10 < n := by omega
    have hstored : (lfqQueueStore (start p) desc_num (s.pc p % 5) (s.link r c)).Kept := by
      have hrc := hkept r c
      rwa [link_initStep, if_pos ht.symm] at hrc
    obtain ⟨hr, hc⟩ : r < n ∧ c < n := by
      obtain ⟨rfl, rfl, -⟩ | ⟨rfl, rfl, -⟩ := target_eq_iff.mp ht.symm
      · exact ⟨hp, hk⟩
      · exact ⟨hk, hp⟩
    have hl := h.link r hr c hc
    obtain ⟨hstart, hother⟩ := target_ends hpc ht.symm
    unfold Harmless
    dsimp only
    rw [ht]
    refine ⟨fun hfield hret => ?_, fun hrole hfield hby => ?_, fun _ _ _ => hsame _ _⟩ <;>
      rw [hfield] at hstored
    · exact hl.head_eq_tail hstart (hother.mpr hret) hstored
    · obtain ⟨rfl, rfl, -⟩ | ⟨-, -, hno⟩ := target_eq_iff.mp ht.symm
      · exact hl.next_eq (hsame _ _) hby hstored
      · exact absurd hrole (by omega)
  | traffic r c l =>
    obtain ⟨hr, hc, hret, hst⟩ := hst
    cases l with
    | send pkt => exact trivial
    | put =>
      obtain rfl := hst
      obtain ⟨l, hlists, T, W, R, hinv⟩ := (h.link r hr c hc).running (Or.inr hret)
      have hrc := hkept r c
      rw [show (s.setLink r c ((s.link r c).senderStep (start c))).link r c
        = (s.link r c).senderStep (start c) from if_pos ⟨rfl, rfl⟩] at hrc
      exact (hlists hret).linksAtEnd hinv hrc
    | get => exact trivial

end Runs

end StartUp

/-- **What a late process destroys.** In a run of harmless steps nothing sent is lost, and the
next step, if all processes map the memory at one address, loses nothing exactly if it is
harmless too. -/
theorem startUp_kept_iff {start : ℕ → ℕ} {n desc_num : ℕ} (hd : 0 < desc_num) {s : StartUp α}
    (h : ((startUpSystem α start n desc_num).restrict (StartUp.Harmless start n)).Reachable s) :
    (∀ r c, (s.link r c).Kept)
      ∧ ((∀ p q, start p = start q) → ∀ l t, (startUpSystem α start n desc_num).step s l t →
        ((∀ r c, (t.link r c).Kept) ↔ s.Harmless start n l)) := by
  have hinv := StartUp.inv_of_reachable hd h
  refine ⟨hinv.kept, fun hsame l t hst => ⟨fun hkept => ?_, fun hh => ?_⟩⟩
  · exact hinv.harmless_of_kept hsame hst hkept
  · have hnext : ((startUpSystem α start n desc_num).restrict
        (StartUp.Harmless start n)).Reachable t := h.step ⟨hh, hst⟩
    exact (StartUp.inv_of_reachable hd hnext).kept

/-! ## Two processes -/

namespace StartUp

/-- Where the processes of the example map the memory. -/
def mapped : ℕ → ℕ := fun _ => 4096

/-- Two processes before they start, over zeroed memory. -/
def start : StartUp ℕ where
  pc := fun _ => 0
  link := fun _ _ => ⟨0, 0, 0, fun _ => 0, fun _ => .head 0, fun _ => .head 0, .put .idle, .idle,
    [], [], []⟩

/-- A process does `m` stores. -/
def stores (p m : ℕ) (s : StartUp ℕ) : StartUp ℕ := (fun s => s.initStep mapped 4 p)^[m] s

/-- Process 0 takes `m` steps at its queue to process 1. -/
def puts (m : ℕ) (s : StartUp ℕ) : StartUp ℕ :=
  (fun s => s.setLink 1 0 ((s.link 1 0).senderStep 4096))^[m] s

/-- Process 0 has started and begins to send packet 7 to process 1. -/
def sendsSeven : StartUp ℕ :=
  (stores 0 20 start).setLink 1 0 (((stores 0 20 start).link 1 0).sendStep 7)

/-- Process 0 has sent packet 7 to process 1. -/
def sevenSent : StartUp ℕ := puts 4 sendsSeven

theorem reachable_stores {s : StartUp ℕ} {p m : ℕ} (hp : p < 2) (hpc : s.pc p + m ≤ 20)
    (h : ((startUpSystem ℕ mapped 2 4).restrict (Harmless mapped 2)).Reachable s)
    (hh : ∀ i < m, (stores p i s).Harmless mapped 2 (.init p)) :
    ((startUpSystem ℕ mapped 2 4).restrict (Harmless mapped 2)).Reachable (stores p m s)
      ∧ (stores p m s).pc p = s.pc p + m := by
  induction m with
  | zero => exact ⟨h, rfl⟩
  | succ m ih =>
    obtain ⟨hreach, hm⟩ := ih (by omega) (fun i hi => hh i (Nat.lt_succ_of_lt hi))
    have hnext : stores p (m + 1) s = (stores p m s).initStep mapped 4 p :=
      Function.iterate_succ_apply' _ _ _
    rw [hnext]
    refine ⟨hreach.step ⟨hh m (Nat.lt_succ_self m), hp, by omega, rfl⟩, ?_⟩
    show Function.update _ p _ p = _
    rw [Function.update_self, hm, Nat.add_assoc]

theorem reachable_puts {s : StartUp ℕ} {m : ℕ} (hret : s.Returned 2 0)
    (h : ((startUpSystem ℕ mapped 2 4).restrict (Harmless mapped 2)).Reachable s)
    (hh : ∀ i < m, ((puts i s).link 1 0).LinksAtEnd 4096) :
    ((startUpSystem ℕ mapped 2 4).restrict (Harmless mapped 2)).Reachable (puts m s)
      ∧ (puts m s).Returned 2 0 := by
  induction m with
  | zero => exact ⟨h, hret⟩
  | succ m ih =>
    obtain ⟨hreach, hm⟩ := ih (fun i hi => hh i (Nat.lt_succ_of_lt hi))
    have hnext : puts (m + 1) s
        = (puts m s).setLink 1 0 (((puts m s).link 1 0).senderStep 4096) :=
      Function.iterate_succ_apply' _ _ _
    rw [hnext]
    have hharmless : (puts m s).Harmless mapped 2 (.traffic 1 0 .put) := hh m (Nat.lt_succ_self m)
    have hstep : (startUpSystem ℕ mapped 2 4).step (puts m s) (.traffic 1 0 .put)
        ((puts m s).setLink 1 0 (((puts m s).link 1 0).senderStep 4096)) :=
      ⟨by decide, by decide, hm, rfl⟩
    exact ⟨hreach.step ⟨hharmless, hstep⟩, hm⟩

/-- While nothing is sent the lists hold nothing. -/
theorem next_stores (p m : ℕ) (r c : ℕ) :
    ∃ a, ((stores p m start).link r c).next none = .head a := by
  induction m with
  | zero => exact ⟨0, rfl⟩
  | succ m ih =>
    have hnext : stores p (m + 1) start = (stores p m start).initStep mapped 4 p :=
      Function.iterate_succ_apply' _ _ _
    rw [hnext, link_initStep]
    split
    · rw [next_store]
      split
      · exact ⟨_, rfl⟩
      · exact ih
    · exact ih

instance (n : ℕ) (s : StartUp ℕ) (p : ℕ) : Decidable (s.Harmless mapped n (.init p)) :=
  inferInstanceAs (Decidable ((_ → _ = _ → _ = _) ∧ (_ → _ → _ < _ → _ = _)
    ∧ (_ → _ → _ < _ → _ = _)))

theorem reachable_sevenSent :
    ((startUpSystem ℕ mapped 2 4).restrict (Harmless mapped 2)).Reachable sevenSent := by
  have hstart : ((startUpSystem ℕ mapped 2 4).restrict (Harmless mapped 2)).Reachable start :=
    System.Reachable.of_init ⟨fun _ => rfl, fun _ _ => ⟨rfl, rfl, rfl, rfl, rfl⟩⟩
  obtain ⟨hreach, hpc⟩ := @reachable_stores start 0 20 (by decide) (by decide) hstart
    (by decide +kernel)
  have hidle : ((stores 0 20 start).link 1 0).sender = .put .idle := by decide +kernel
  have hfree : (stores 0 20 start).Free 0 7 := by
    intro r l hl
    obtain ⟨a, ha⟩ := next_stores 0 20 r 0
    rw [ha] at hl
    cases l with
    | nil => exact List.not_mem_nil
    | cons x l => exact absurd hl.1 (by simp)
  have hsend : (startUpSystem ℕ mapped 2 4).step (stores 0 20 start) (.traffic 1 0 (.send 7))
      sendsSeven := ⟨by decide, by decide, hpc, hidle, hfree, rfl⟩
  have hharmless : (stores 0 20 start).Harmless mapped 2 (.traffic 1 0 (.send 7)) := trivial
  refine (reachable_puts (show sendsSeven.Returned 2 0 from hpc) (hreach.step ⟨hharmless, hsend⟩)
    fun i hi => ?_).1
  obtain rfl | rfl | rfl | rfl : i = 0 ∨ i = 1 ∨ i = 2 ∨ i = 3 := by omega
  · exact trivial
  · exact trivial
  · exact trivial
  · exact ⟨none, by decide +kernel, by decide +kernel⟩

/-- Three stores of process 1 are harmless. -/
theorem reachable_late : ((startUpSystem ℕ mapped 2 4).restrict (Harmless mapped 2)).Reachable
    (stores 1 3 sevenSent) := by
  have hpc : sevenSent.pc 1 = 0 := by decide +kernel
  exact (reachable_stores (by decide) (by rw [hpc]; decide) reachable_sevenSent
    (by decide +kernel)).1

end StartUp

/-- Until the list is cleared the packet is there. -/
theorem startUp_kept_iff_late : ((StartUp.stores 1 3 StartUp.sevenSent).link 1 0).Kept :=
  (startUp_kept_iff (by decide) StartUp.reachable_late).1 1 0

/-- **The fourth store of process 1 loses the packet.** -/
theorem late_init_loses :
    (startUpSystem ℕ StartUp.mapped 2 4).Reachable
        ((StartUp.stores 1 3 StartUp.sevenSent).initStep StartUp.mapped 4 1)
      ∧ (((StartUp.stores 1 3 StartUp.sevenSent).initStep StartUp.mapped 4 1).link 1 0).sent = [7]
      ∧ ¬ (((StartUp.stores 1 3 StartUp.sevenSent).initStep StartUp.mapped 4 1).link 1 0).Kept := by
  have hpc : (StartUp.stores 1 3 StartUp.sevenSent).pc 1 < 10 * 2 := by decide +kernel
  have hreach := StartUp.reachable_late.of_restrict
  generalize hs : StartUp.stores 1 3 StartUp.sevenSent = s at hpc hreach
  have hsent : ((s.initStep StartUp.mapped 4 1).link 1 0).sent = [7] := by
    rw [← hs]
    decide +kernel
  have hnext : ((s.initStep StartUp.mapped 4 1).link 1 0).next none = .head 4096 := by
    rw [← hs]
    decide +kernel
  have hgone : ((s.initStep StartUp.mapped 4 1).link 1 0).received
      ++ (((s.initStep StartUp.mapped 4 1).link 1 0).withList []).published
      ++ (((s.initStep StartUp.mapped 4 1).link 1 0).withList []).written
      ++ ((s.initStep StartUp.mapped 4 1).link 1 0).atHand = [] := by
    rw [← hs]
    decide +kernel
  have hinit : (startUpSystem ℕ StartUp.mapped 2 4).step s (.init 1)
      (s.initStep StartUp.mapped 4 1) := ⟨by decide, hpc, rfl⟩
  refine ⟨hreach.step hinit, hsent, fun hkept => ?_⟩
  obtain ⟨l, hl, hsub⟩ := hkept
  rw [hnext] at hl
  rw [hsent, hgone] at hsub
  cases l with
  | nil => exact absurd hsub.length_le (by decide)
  | cons x l => exact absurd hl.1 (by simp)
