import Ustack.LfQueue

/-!
# The pending list of a queue, link by link

The list of packets that wait for a slot of a queue is in the memory all processes share, and
while processes start up its receiver stores to it too (`lfq_queue_create_init` of
`src/lf_queue.c`). So here the list is what it is in memory, the `next` and `prev` of a list
head and of the packets, and `lfq_send` and `__put_packet_to_queue` take one store after the
other: `list_add_tail` and `list_del` of `include/common/list.h` are not one step.

A link holds an address of the process that stored it, and processes may map the memory at
different addresses. What a process meets when it follows the address of another one is not
the queue: a store there is not seen in the queue, and what is taken for a packet is none.

As long as nobody else stores to it, the list is a sequence: `SharedLink.Lists` says which, and
every step of the sender is then a step of the queue with that sequence as its list, or no step
of it (`SharedLink.Lists.senderStep`).
-/

variable {α : Type*}

/-- What a `next` or a `prev` holds. -/
inductive ListLink (α : Type*)
  /-- The address of the list head where the memory is mapped at `start`. -/
  | head (start : ℕ)
  /-- The address of a packet of the sender. -/
  | packet (pkt : α)
deriving DecidableEq

/-- The head (`none`) or the packet a process finds at an address: it finds the head at the
address it maps the memory at. -/
def ListLink.at (start : ℕ) : ListLink α → Option (Option α)
  | .head start' => if start' = start then some none else none
  | .packet pkt => some (some pkt)

/-- The locals of `__put_packet_to_queue`. -/
structure PutLocals where
  /-- The head, as read. -/
  head : ℕ
  /-- The tail, as read. -/
  tail : ℕ
  /-- The slot to write. -/
  i : ℕ
  /-- The slot after it. -/
  i_next : ℕ
  /-- The slots written. -/
  count : ℕ
deriving DecidableEq

/-- Where the sender is, with its locals. -/
inductive SenderPc (α : Type*)
  /-- Not in `list_add_tail`, and not between `list_empty` and the slot. -/
  | put (pc : PutPc)
  /-- `list_empty` said no. -/
  | first (v : PutLocals)
  /-- In `__list_del` of a packet, before `next->prev = prev`. -/
  | delPrev (v : PutLocals) (pkt : α) (next prev : ListLink α)
  /-- In `__list_del` of a packet, before `prev->next = next`. -/
  | delNext (v : PutLocals) (pkt : α) (next prev : ListLink α)
  /-- The packet is off the list and not yet in its slot. -/
  | slot (v : PutLocals) (pkt : α)
  /-- In `__list_add` of a packet, before `next->prev = new`. -/
  | addPrev (pkt : α) (prev : ListLink α)
  /-- In `__list_add`, before `new->next = next`. -/
  | addOwnNext (pkt : α) (prev : ListLink α)
  /-- In `__list_add`, before `new->prev = prev`. -/
  | addOwnPrev (pkt : α) (prev : ListLink α)
  /-- In `__list_add`, before `prev->next = new`. -/
  | addNext (pkt : α) (prev : ListLink α)
  /-- It took for a packet what is none. -/
  | wild
deriving DecidableEq

/-- Where the sender is in a queue whose list is a sequence. -/
def SenderPc.toPutPc : SenderPc α → PutPc
  | .put pc => pc
  | .first v | .delPrev v _ _ _ | .delNext v _ _ _ | .slot v _ =>
    .body v.head v.tail v.i v.i_next v.count
  | .addPrev _ _ | .addOwnNext _ _ | .addOwnPrev _ _ | .addNext _ _ => .idle
  | .wild => .failed

/-- A queue in shared memory, the two processes at its ends, and what went through it. -/
structure SharedLink (α : Type*) where
  /-- The number of slots. -/
  size : ℕ
  /-- The next slot to read. -/
  head : ℕ
  /-- The next slot to write. -/
  tail : ℕ
  /-- The slots. -/
  desc : ℕ → α
  /-- The `next` of the list head (`none`) and of the packets. -/
  next : Option α → ListLink α
  /-- The `prev` of the list head and of the packets. -/
  prev : Option α → ListLink α
  /-- The sender. -/
  sender : SenderPc α
  /-- The receiver. -/
  get : GetPc
  /-- What the receiver appended to its list so far. -/
  lhead : List α
  /-- The part of it whose slots it has given back. -/
  received : List α
  /-- Everything sent so far. -/
  sent : List α

namespace SharedLink

/-- The queue with a sequence for its list. -/
def withList (s : SharedLink α) (l : List α) : LfqLink α where
  queue := ⟨s.size, l, s.head, s.tail, s.desc⟩
  put := s.sender.toPutPc
  get := s.get
  lhead := s.lhead
  received := s.received
  sent := s.sent

/-- The queue after a step that leaves the links alone, and where the sender is then. -/
def stepTo (s : SharedLink α) (link : LfqLink α) (sender : SenderPc α) : SharedLink α :=
  { s with
    size := link.queue.size
    head := link.queue.head
    tail := link.queue.tail
    desc := link.queue.desc
    sender := sender
    get := link.get
    lhead := link.lhead
    received := link.received
    sent := link.sent }

/-- One step of `__get_packet_from_queue`. It does not read the list. -/
def getStep (s : SharedLink α) : SharedLink α := s.stepTo (s.withList []).getStep s.sender

section Links

variable [DecidableEq α]

/-- A store to the `next` of what a process finds at an address. -/
def storeNext (start : ℕ) (s : SharedLink α) (q v : ListLink α) : SharedLink α :=
  match q.at start with
  | some x => { s with next := Function.update s.next x v }
  | none => s

/-- A store to the `prev` of what a process finds at an address. -/
def storePrev (start : ℕ) (s : SharedLink α) (q v : ListLink α) : SharedLink α :=
  match q.at start with
  | some x => { s with prev := Function.update s.prev x v }
  | none => s

/-- The start of `lfq_send`: `list_add_tail` reads the `prev` of the head. -/
def sendStep (s : SharedLink α) (pkt : α) : SharedLink α :=
  { s with sender := .addPrev pkt (s.prev none) }

/-- One step of the sender, which maps the memory at `start`: of `lfq_send`, if it is in there,
and of `__put_packet_to_queue` otherwise. -/
def senderStep (start : ℕ) (s : SharedLink α) : SharedLink α :=
  match s.sender with
  | .put (.body head tail i i_next count) =>
    if s.next none = .head start then
      { s with sender := .put (if 0 < count then .cas tail i else .idle) }
    else { s with sender := .first ⟨head, tail, i, i_next, count⟩ }
  | .put _ =>
    -- the list is not read here
    let link := (s.withList []).putStep
    s.stepTo link (.put link.put)
  | .first v =>
    match s.next none with
    | .packet pkt => { s with sender := .delPrev v pkt (s.next (some pkt)) (s.prev (some pkt)) }
    | .head _ => { s with sender := .wild }
  | .delPrev v pkt next prev =>
    { s.storePrev start next prev with sender := .delNext v pkt next prev }
  | .delNext v pkt next prev => { s.storeNext start prev next with sender := .slot v pkt }
  | .slot _ pkt =>
    -- the packet at hand goes to its slot
    let link := (s.withList [pkt]).putStep
    s.stepTo link (.put link.put)
  | .addPrev pkt prev =>
    { s.storePrev start (.head start) (.packet pkt) with sender := .addOwnNext pkt prev }
  | .addOwnNext pkt prev =>
    { s.storeNext start (.packet pkt) (.head start) with sender := .addOwnPrev pkt prev }
  | .addOwnPrev pkt prev =>
    { s.storePrev start (.packet pkt) prev with sender := .addNext pkt prev }
  | .addNext pkt prev =>
    { s.storeNext start prev (.packet pkt) with
      sender := .put .idle
      sent := s.sent ++ [pkt] }
  | .wild => s

end Links

/-! ## What is on the list -/

/-- What a walk along `next` meets, as far as it goes. -/
def Meets (next : Option α → ListLink α) : ListLink α → List α → Prop
  | _, [] => True
  | q, x :: l => q = .packet x ∧ Meets next (next (some x)) l

/-- The packet between the list and its slot. -/
def atHand (s : SharedLink α) : List α :=
  match s.sender with
  | .slot _ pkt => [pkt]
  | _ => []

/-- **Nothing sent is lost**: it was received, is in the slots, is between the list and its
slot or is met on the list. -/
def Kept (s : SharedLink α) : Prop :=
  ∃ l, Meets s.next (s.next none) l
    ∧ s.sent.Subperm (s.received ++ (s.withList []).published ++ (s.withList []).written
      ++ s.atHand ++ l)

/-- A walk along `next` meets the packets of a list and then comes to an address. -/
def Leads (next : Option α → ListLink α) (stop : ListLink α) : ListLink α → List α → Prop
  | q, [] => q = stop
  | q, x :: l => q = .packet x ∧ Leads next stop (next (some x)) l

/-- The address of the head or of a packet. -/
def linkTo (start : ℕ) : Option α → ListLink α
  | none => .head start
  | some x => .packet x

/-- **The links of a list**, for a process. -/
structure Chained (start : ℕ) (next prev : Option α → ListLink α) (l : List α) : Prop where
  /-- A packet is on it once. -/
  nodup : l.Nodup
  /-- The way forward. -/
  leads : Leads next (.head start) (next none) l
  /-- The first packet points back to the head. -/
  first : ∀ x ∈ l.head?, prev (some x) = .head start

/-- The `prev` of the head: the last packet, or the head itself where the receiver has just
stored that. -/
def LastIs (start : ℕ) (q : ListLink α) (l : List α) : Prop :=
  q = .head start ∨ q = linkTo start l.getLast?

/-- **The pending list is a sequence**, with what the sender is doing to it. -/
def Lists (start : ℕ) (s : SharedLink α) (l : List α) : Prop :=
  match s.sender with
  | .put _ => Chained start s.next s.prev l ∧ LastIs start (s.prev none) l
  | .first _ => Chained start s.next s.prev l ∧ LastIs start (s.prev none) l ∧ l ≠ []
  | .delPrev _ pkt next prev => ∃ rest, l = pkt :: rest ∧ Chained start s.next s.prev l
    ∧ LastIs start (s.prev none) l ∧ next = s.next (some pkt) ∧ prev = .head start
  | .delNext _ pkt next prev => ∃ rest, l = pkt :: rest ∧ Chained start s.next s.prev l
    ∧ LastIs start (s.prev none) rest ∧ next = s.next (some pkt) ∧ prev = .head start
    ∧ ∀ x ∈ rest.head?, s.prev (some x) = .head start
  | .slot _ pkt => ∃ rest, l = pkt :: rest ∧ Chained start s.next s.prev rest
    ∧ LastIs start (s.prev none) rest
  | .addPrev pkt prev => Chained start s.next s.prev l ∧ pkt ∉ l ∧ LastIs start prev l
  | .addOwnNext pkt prev => Chained start s.next s.prev l ∧ pkt ∉ l ∧ LastIs start prev l
    ∧ LastIs start (s.prev none) [pkt]
  | .addOwnPrev pkt prev => Chained start s.next s.prev l ∧ pkt ∉ l ∧ LastIs start prev l
    ∧ LastIs start (s.prev none) [pkt] ∧ s.next (some pkt) = .head start
  | .addNext pkt prev => Chained start s.next s.prev l ∧ pkt ∉ l ∧ LastIs start prev l
    ∧ LastIs start (s.prev none) [pkt] ∧ s.next (some pkt) = .head start
    ∧ s.prev (some pkt) = prev
  | .wild => False

/-- **The sender links a packet where the list ends**: where `prev->next = new` is stored the
list head is, as it maps it, at the time. -/
def LinksAtEnd (start : ℕ) (s : SharedLink α) : Prop :=
  match s.sender with
  | .addNext _ prev => ∃ x, prev.at start = some x ∧ s.next x = .head start
  | _ => True

section Walks

variable {next next' : Option α → ListLink α} {start : ℕ} {q stop : ListLink α} {l l' : List α}
  {c : Option α} {x : α}

/-- Links that read the same. -/
theorem Leads.congr (h : Leads next stop q l) (hnext : ∀ x ∈ l, next' (some x) = next (some x)) :
    Leads next' stop q l := by
  induction l generalizing q with
  | nil => exact h
  | cons x l ih =>
    refine ⟨h.1, ?_⟩
    rw [hnext x List.mem_cons_self]
    exact ih h.2 (fun y hy => hnext y (List.mem_cons_of_mem x hy))

/-- A walk can go all the way. -/
theorem Leads.meets (h : Leads next stop q l) : Meets next q l := by
  induction l generalizing q with
  | nil => trivial
  | cons x l ih => exact ⟨h.1, ih h.2⟩

/-- A walk meets no more. -/
theorem Leads.prefix_of_meets (h : Leads next (.head start) q l) (h' : Meets next q l') :
    l' <+: l := by
  induction l generalizing q l' with
  | nil =>
    cases l' with
    | nil => exact List.prefix_rfl
    | cons x l' => exact absurd (h.symm.trans h'.1) (by simp)
  | cons y l ih =>
    cases l' with
    | nil => exact List.nil_prefix
    | cons x l' =>
      obtain rfl : y = x := ListLink.packet.inj (h.1.symm.trans h'.1)
      exact List.cons_prefix_cons.mpr ⟨rfl, ih h.2 h'.2⟩

/-- A walk that starts at the end meets nothing. -/
theorem Leads.eq_nil_iff (h : Leads next (.head start) q l) : q = .head start ↔ l = [] := by
  cases l with
  | nil => exact ⟨fun _ => rfl, fun _ => h⟩
  | cons x l =>
    refine ⟨fun hq => ?_, fun hl => absurd hl (List.cons_ne_nil x l)⟩
    exact absurd (h.1.symm.trans hq) (by simp)

/-- The last of a list, or what is before it. -/
theorem getLast?_cons_or (y : α) (l : List α) (c : Option α) :
    (y :: l).getLast?.or c = l.getLast?.or (some y) := by
  rw [List.getLast?_cons]
  cases l.getLast? <;> rfl

/-- The last packet leads to the end. -/
theorem Leads.last (h : Leads next stop (next c) l) : next (l.getLast?.or c) = stop := by
  induction l generalizing c with
  | nil => exact h
  | cons y l ih =>
    have hlast := getLast?_cons_or y l c
    rw [hlast]
    exact ih h.2

variable [DecidableEq α]

/-- **A packet is linked behind the last one.** -/
theorem Leads.append (h : Leads next stop (next c) l) (hnodup : (c :: l.map some).Nodup)
    (hx : some x ∉ c :: l.map some) (hend : next (some x) = stop) :
    Leads (Function.update next (l.getLast?.or c) (.packet x)) stop
      (Function.update next (l.getLast?.or c) (.packet x) c) (l ++ [x]) := by
  induction l generalizing c with
  | nil =>
    have hne : some x ≠ c := fun hc => hx (hc ▸ List.mem_cons_self)
    show Leads (Function.update next c (.packet x)) stop (Function.update next c (.packet x) c) [x]
    rw [Function.update_self]
    refine ⟨rfl, ?_⟩
    rw [Function.update_of_ne hne]
    exact hend
  | cons y l ih =>
    obtain ⟨hc, hl⟩ := List.nodup_cons.mp hnodup
    have hlast := getLast?_cons_or y l c
    have hmem : l.getLast?.or (some y) ∈ (y :: l).map some := by
      cases hlast : l.getLast? with
      | none => exact List.mem_cons_self
      | some z =>
        exact List.mem_cons_of_mem _ (List.mem_map_of_mem (List.mem_of_getLast? hlast))
    rw [hlast]
    refine ⟨?_, ih h.2 hl (fun hx' => hx (List.mem_cons_of_mem c hx'))⟩
    rw [Function.update_of_ne (fun he : c = l.getLast?.or (some y) => hc (by rw [he]; exact hmem))]
    exact h.1

end Walks

section Sender

variable {start : ℕ} {s : SharedLink α} {l rest : List α} {pkt : α}

theorem Chained.empty_iff {next prev : Option α → ListLink α} (h : Chained start next prev l) :
    next none = .head start ↔ l = [] :=
  h.leads.eq_nil_iff

/-- What is not at hand is linked. -/
theorem Lists.chained (h : s.Lists start l) : ∃ l₀, l = s.atHand ++ l₀
    ∧ Chained start s.next s.prev l₀ := by
  unfold Lists at h
  unfold atHand
  cases hpc : s.sender with
  | put pc => rw [hpc] at h; exact ⟨l, rfl, h.1⟩
  | first v => rw [hpc] at h; exact ⟨l, rfl, h.1⟩
  | delPrev v pkt next prev =>
    rw [hpc] at h
    obtain ⟨rest, -, hl, -⟩ := h
    exact ⟨l, rfl, hl⟩
  | delNext v pkt next prev =>
    rw [hpc] at h
    obtain ⟨rest, -, hl, -⟩ := h
    exact ⟨l, rfl, hl⟩
  | slot v pkt =>
    rw [hpc] at h
    obtain ⟨rest, rfl, hrest, -⟩ := h
    exact ⟨rest, rfl, hrest⟩
  | addPrev pkt prev => rw [hpc] at h; exact ⟨l, rfl, h.1⟩
  | addOwnNext pkt prev => rw [hpc] at h; exact ⟨l, rfl, h.1⟩
  | addOwnPrev pkt prev => rw [hpc] at h; exact ⟨l, rfl, h.1⟩
  | addNext pkt prev => rw [hpc] at h; exact ⟨l, rfl, h.1⟩
  | wild => rw [hpc] at h; exact absurd h id

/-- **A walk meets no more than is on the list** and not at hand. -/
theorem Lists.length_le (h : s.Lists start l) {l' : List α}
    (h' : Meets s.next (s.next none) l') : s.atHand.length + l'.length ≤ l.length := by
  obtain ⟨l₀, rfl, hl₀⟩ := h.chained
  rw [List.length_append]
  exact Nat.add_le_add_left (hl₀.leads.prefix_of_meets h').length_le _

/-- **Nothing is lost where the list is a sequence** of a queue that works. -/
theorem Lists.kept (h : s.Lists start l) {size T W R : ℕ} (hinv : (s.withList l).Inv size T W R) :
    s.Kept := by
  obtain ⟨l₀, rfl, hl₀⟩ := h.chained
  refine ⟨l₀, hl₀.leads.meets, ?_⟩
  have hsent : s.received ++ (s.withList []).published ++ (s.withList []).written
      ++ (s.atHand ++ l₀) = s.sent := hinv.sent_eq
  rw [List.append_assoc _ s.atHand l₀, hsent]

/-- What was sent, counted. -/
theorem length_sent {size T W R : ℕ} (hinv : (s.withList l).Inv size T W R) :
    s.sent.length = s.received.length + (s.withList []).published.length
      + (s.withList []).written.length + l.length := by
  have hsent : s.received ++ (s.withList []).published ++ (s.withList []).written ++ l = s.sent :=
    hinv.sent_eq
  rw [← hsent, List.length_append, List.length_append, List.length_append]

/-- What is kept, counted. -/
theorem Kept.length_le (h : s.Kept) : ∃ l, Meets s.next (s.next none) l
    ∧ s.sent.length ≤ s.received.length + (s.withList []).published.length
      + (s.withList []).written.length + s.atHand.length + l.length := by
  obtain ⟨l, hl, hsub⟩ := h
  refine ⟨l, hl, ?_⟩
  have hlen := hsub.length_le
  rwa [List.length_append, List.length_append, List.length_append, List.length_append] at hlen

/-! ## Steps of the sender -/

/-- A step of the sender, of a queue whose list is a sequence: one of the queue, or none. -/
def SenderSteps (size : ℕ) (a a' : LfqLink α) : Prop :=
  a' = a ∨ ∃ lab, lab ≠ .get ∧ (lfqSystem α size).step a lab a'

/-- Reading the list, or a slot of it, is a step of `LfqLink.putStep`. -/
theorem senderSteps_put {size : ℕ} {a a' : LfqLink α} (h : a' = a.putStep) :
    SenderSteps size a a' :=
  Or.inr ⟨.put, by simp, h⟩

section Steps

variable [DecidableEq α]

/-- The links of another packet. -/
theorem Chained.update_next {next prev : Option α → ListLink α} (h : Chained start next prev l)
    (hpkt : pkt ∉ l) (v : ListLink α) :
    Chained start (Function.update next (some pkt) v) prev l := by
  refine ⟨h.nodup, ?_, h.first⟩
  rw [Function.update_of_ne (Option.some_ne_none pkt).symm]
  refine h.leads.congr (fun x hx => Function.update_of_ne (fun he : some x = some pkt => ?_) _ _)
  exact hpkt (Option.some_inj.mp he ▸ hx)

theorem Chained.update_prev {next prev : Option α → ListLink α} (h : Chained start next prev l)
    {c : Option α} (hc : ∀ x ∈ l.head?, c ≠ some x) (v : ListLink α) :
    Chained start next (Function.update prev c v) l := by
  refine ⟨h.nodup, h.leads, fun x hx => ?_⟩
  rw [Function.update_of_ne (hc x hx).symm]
  exact h.first x hx

/-- **A packet is linked** behind the last one. -/
theorem Chained.append {next prev : Option α → ListLink α} (h : Chained start next prev l)
    (hpkt : pkt ∉ l) (hnext : next (some pkt) = .head start)
    (hprev : l = [] → prev (some pkt) = .head start) :
    Chained start (Function.update next l.getLast? (.packet pkt)) prev (l ++ [pkt]) := by
  have hnodup : (none :: l.map some).Nodup :=
    List.nodup_cons.mpr ⟨by simp, h.nodup.map (Option.some_injective α)⟩
  have hleads := h.leads.append hnodup (show some pkt ∉ none :: l.map some by simpa using hpkt)
    hnext
  rw [Option.or_none] at hleads
  refine ⟨?_, hleads, fun x hx => ?_⟩
  · rw [← List.concat_eq_append]
    exact h.nodup.concat hpkt
  · cases l with
    | nil =>
      obtain rfl : pkt = x := Option.some_inj.mp hx
      exact hprev rfl
    | cons y l => exact h.first x hx

/-- **A packet is taken off** the front of the list. -/
theorem Chained.tail {next prev : Option α → ListLink α} (h : Chained start next prev (pkt :: rest))
    (hfirst : ∀ x ∈ rest.head?, prev (some x) = .head start) :
    Chained start (Function.update next none (next (some pkt))) prev rest := by
  refine ⟨(List.nodup_cons.mp h.nodup).2, ?_, hfirst⟩
  rw [Function.update_self]
  exact h.leads.2.congr (fun x _ => Function.update_of_ne (Option.some_ne_none x) _ _)

omit [DecidableEq α] in
/-- `__put_packet_to_queue` outside the loop does not read the list. -/
theorem withList_putStep {pc : PutPc} (hpc : s.sender = .put pc)
    (hbody : ∀ head tail i i_next count, pc ≠ .body head tail i i_next count) (l : List α) :
    (s.stepTo (s.withList []).putStep (.put (s.withList []).putStep.put)).withList l
      = (s.withList l).putStep := by
  have hput : ∀ l, (s.withList l).put = pc := fun l => congrArg SenderPc.toPutPc hpc
  unfold LfqLink.putStep
  rw [hput, hput]
  cases pc with
  | idle => rfl
  | tail head =>
    by_cases hfull : (s.tail + 1) % s.size = head <;>
      simp [withList, stepTo, SenderPc.toPutPc, hfull]
  | body head tail i i_next count => exact absurd rfl (hbody head tail i i_next count)
  | cas tail i =>
    by_cases hsame : s.tail = tail <;> simp [withList, stepTo, SenderPc.toPutPc, hsame]
  | failed => rfl

omit [DecidableEq α] in
/-- The packet at hand is the first of the list, and goes to its slot. -/
theorem withList_slot {v : PutLocals} (hpc : s.sender = .slot v pkt) (rest : List α) :
    (s.stepTo (s.withList [pkt]).putStep (.put (s.withList [pkt]).putStep.put)).withList rest
      = (s.withList (pkt :: rest)).putStep := by
  have hput : ∀ l, (s.withList l).put = .body v.head v.tail v.i v.i_next v.count :=
    fun l => congrArg SenderPc.toPutPc hpc
  unfold LfqLink.putStep
  rw [hput, hput]
  rfl

/-- **Every step of the sender is one of the queue, or none**, if it links packets where the
list ends. -/
theorem Lists.senderStep (h : s.Lists start l) (hend : s.LinksAtEnd start) (size : ℕ) :
    ∃ l', (s.senderStep start).Lists start l'
      ∧ SenderSteps size (s.withList l) ((s.senderStep start).withList l') := by
  unfold Lists at h
  unfold LinksAtEnd at hend
  unfold SharedLink.senderStep
  cases hpc : s.sender with
  | put pc =>
    rw [hpc] at h
    cases pc with
    | body head tail i i_next count =>
      dsimp only
      by_cases hempty : s.next none = .head start
      · -- the list is empty
        obtain rfl := h.1.empty_iff.mp hempty
        rw [if_pos hempty]
        refine ⟨[], h, senderSteps_put ?_⟩
        unfold LfqLink.putStep
        rw [show (s.withList []).put = .body head tail i i_next count from
          congrArg SenderPc.toPutPc hpc]
        rfl
      · rw [if_neg hempty]
        refine ⟨l, ⟨h.1, h.2, fun hl => hempty (h.1.empty_iff.mpr hl)⟩, Or.inl ?_⟩
        unfold withList
        rw [hpc]
        rfl
    | idle => exact ⟨l, h, senderSteps_put (withList_putStep hpc (by simp) l)⟩
    | tail head => exact ⟨l, h, senderSteps_put (withList_putStep hpc (by simp) l)⟩
    | cas tail i => exact ⟨l, h, senderSteps_put (withList_putStep hpc (by simp) l)⟩
    | failed => exact ⟨l, h, senderSteps_put (withList_putStep hpc (by simp) l)⟩
  | first v =>
    rw [hpc] at h
    obtain ⟨hl, hlast, hne⟩ := h
    obtain ⟨pkt, rest, rfl⟩ := List.exists_cons_of_ne_nil hne
    dsimp only
    rw [hl.leads.1]
    refine ⟨pkt :: rest, ⟨rest, rfl, hl, hlast, rfl, hl.first pkt rfl⟩, Or.inl ?_⟩
    unfold withList
    rw [hpc]
    rfl
  | delPrev v pkt next prev =>
    rw [hpc] at h
    obtain ⟨rest, rfl, hl, hlast, rfl, rfl⟩ := h
    dsimp only
    have hsame : ∀ prev, (show SharedLink α from { s with
        prev := prev
        sender := .delNext v pkt (s.next (some pkt)) (.head start) }).withList (pkt :: rest)
          = s.withList (pkt :: rest) := by
      intro prev
      unfold withList
      rw [hpc]
      rfl
    cases rest with
    | nil =>
      -- the only packet: the head points back to itself
      have hnext : s.next (some pkt) = .head start := hl.leads.2
      have hstore : s.storePrev start (s.next (some pkt)) (.head start)
          = { s with prev := Function.update s.prev none (.head start) } := by
        rw [storePrev, hnext, ListLink.at, if_pos rfl]
      rw [hstore]
      exact ⟨[pkt], ⟨[], rfl, hl.update_prev (fun x _ => (Option.some_ne_none x).symm) _,
        Or.inl (Function.update_self none _ s.prev), rfl, rfl, fun x hx => absurd hx (by simp)⟩,
        Or.inl (hsame _)⟩
    | cons y rest =>
      -- the packet after it points back to the head
      have hnext : s.next (some pkt) = .packet y := hl.leads.2.1
      have hstore : s.storePrev start (s.next (some pkt)) (.head start)
          = { s with prev := Function.update s.prev (some y) (.head start) } := by
        rw [storePrev, hnext, ListLink.at]
      have hne : y ≠ pkt := fun he => (List.nodup_cons.mp hl.nodup).1 (he ▸ List.mem_cons_self)
      rw [hstore]
      refine ⟨pkt :: y :: rest, ⟨y :: rest, rfl, hl.update_prev (fun x hx he => ?_) _, ?_, rfl, rfl,
        fun x hx => ?_⟩, Or.inl (hsame _)⟩
      · obtain rfl : pkt = x := Option.some_inj.mp hx
        exact hne (Option.some_inj.mp he)
      · show LastIs start (Function.update s.prev (some y) (.head start) none) (y :: rest)
        rw [Function.update_of_ne (Option.some_ne_none y).symm]
        rwa [LastIs, List.getLast?_cons_cons] at hlast
      · obtain rfl : y = x := Option.some_inj.mp hx
        exact Function.update_self (some y) _ s.prev
  | delNext v pkt next prev =>
    rw [hpc] at h
    obtain ⟨rest, rfl, hl, hlast, rfl, rfl, hfirst⟩ := h
    have hstore : s.storeNext start (.head start) (s.next (some pkt))
        = { s with next := Function.update s.next none (s.next (some pkt)) } := by
      rw [storeNext, ListLink.at, if_pos rfl]
    dsimp only
    rw [hstore]
    refine ⟨pkt :: rest, ⟨rest, rfl, hl.tail hfirst, hlast⟩, Or.inl ?_⟩
    unfold withList
    rw [hpc]
    rfl
  | slot v pkt =>
    rw [hpc] at h
    obtain ⟨rest, rfl, hl, hlast⟩ := h
    exact ⟨rest, ⟨hl, hlast⟩, senderSteps_put (withList_slot hpc rest)⟩
  | addPrev pkt prev =>
    rw [hpc] at h
    obtain ⟨hl, hpkt, hlast⟩ := h
    have hstore : s.storePrev start (.head start) (.packet pkt)
        = { s with prev := Function.update s.prev none (.packet pkt) } := by
      rw [storePrev, ListLink.at, if_pos rfl]
    dsimp only
    rw [hstore]
    refine ⟨l, ⟨hl.update_prev (fun x _ => (Option.some_ne_none x).symm) _, hpkt, hlast, ?_⟩,
      Or.inl ?_⟩
    · exact Or.inr (Function.update_self none _ s.prev)
    · unfold withList
      rw [hpc]
      rfl
  | addOwnNext pkt prev =>
    rw [hpc] at h
    obtain ⟨hl, hpkt, hlast, hprev⟩ := h
    refine ⟨l, ⟨hl.update_next hpkt _, hpkt, hlast, hprev,
      Function.update_self (some pkt) _ s.next⟩, Or.inl ?_⟩
    unfold withList
    rw [hpc]
    rfl
  | addOwnPrev pkt prev =>
    rw [hpc] at h
    obtain ⟨hl, hpkt, hlast, hprev, hnext⟩ := h
    refine ⟨l, ⟨hl.update_prev (fun x hx => ?_) _, hpkt, hlast, ?_, hnext,
      Function.update_self (some pkt) _ s.prev⟩, Or.inl ?_⟩
    · exact fun he => hpkt (Option.some_inj.mp he ▸ List.mem_of_mem_head? hx)
    · show LastIs start (Function.update s.prev (some pkt) prev none) [pkt]
      rw [Function.update_of_ne (Option.some_ne_none pkt).symm]
      exact hprev
    · unfold withList
      rw [hpc]
      rfl
  | addNext pkt prev =>
    rw [hpc] at h hend
    obtain ⟨hl, hpkt, hlast, hprev, hnext, hown⟩ := h
    obtain ⟨c, hc, hcnext⟩ := hend
    -- the packet `prev` names is the last one
    have hlastc : c = l.getLast? ∧ (l = [] → prev = .head start) := by
      obtain rfl | rfl := hlast
      · rw [ListLink.at, if_pos rfl] at hc
        obtain rfl := Option.some_inj.mp hc
        exact ⟨by rw [hl.empty_iff.mp hcnext]; rfl, fun _ => rfl⟩
      · cases hlast : l.getLast? with
        | none =>
          rw [hlast, linkTo, ListLink.at, if_pos rfl] at hc
          exact ⟨(Option.some_inj.mp hc).symm, fun _ => rfl⟩
        | some x =>
          rw [hlast] at hc
          refine ⟨(Option.some_inj.mp hc).symm, fun hnil => ?_⟩
          rw [hnil] at hlast
          exact absurd hlast (by simp)
    have hstore : s.storeNext start prev (.packet pkt)
        = { s with next := Function.update s.next l.getLast? (.packet pkt) } := by
      rw [storeNext, hc, hlastc.1]
    dsimp only
    rw [hstore]
    refine ⟨l ++ [pkt], ⟨hl.append hpkt hnext (fun hnil => hown.trans (hlastc.2 hnil)), ?_⟩,
      Or.inr ⟨.send pkt, by simp, congrArg SenderPc.toPutPc hpc, ?_⟩⟩
    · rw [LastIs, List.getLast?_concat]
      exact hprev
    · unfold withList
      rw [hpc]
      rfl
  | wild => rw [hpc] at h; exact absurd h id

/-- **Linking a packet elsewhere** than where the list ends loses those that wait. -/
theorem Lists.linksAtEnd (h : s.Lists start l) {size T W R : ℕ}
    (hinv : (s.withList l).Inv size T W R) (hkept : (s.senderStep start).Kept) :
    s.LinksAtEnd start := by
  have hcount := length_sent hinv
  unfold Lists at h
  unfold LinksAtEnd
  cases hpc : s.sender with
  | addNext pkt prev =>
    rw [hpc] at h
    obtain ⟨hl, hpkt, hlast, -, hnext, -⟩ := h
    obtain rfl | rfl := hlast
    · -- behind the head
      refine ⟨none, by rw [ListLink.at, if_pos rfl], hl.empty_iff.mpr ?_⟩
      have hstep : s.senderStep start = { s with
          next := Function.update s.next none (.packet pkt)
          sender := .put .idle
          sent := s.sent ++ [pkt] } := by
        unfold SharedLink.senderStep
        rw [hpc]
        dsimp only
        rw [storeNext, ListLink.at, if_pos rfl]
      have hwritten : (s.withList []).written = [] := by
        unfold LfqLink.written
        rw [show (s.withList []).put = .idle from congrArg SenderPc.toPutPc hpc]
      rw [hstep] at hkept
      obtain ⟨l', hmeets, hlen⟩ := hkept.length_le
      have hleads : Leads (Function.update s.next none (.packet pkt)) (.head start)
          (Function.update s.next none (.packet pkt) none) [pkt] := by
        rw [Function.update_self]
        refine ⟨rfl, ?_⟩
        rw [Function.update_of_ne (Option.some_ne_none pkt)]
        exact hnext
      have hone : l'.length ≤ 1 := (hleads.prefix_of_meets hmeets).length_le
      have hlen' : (s.sent ++ [pkt]).length ≤ s.received.length
        + (s.withList []).published.length + 0 + 0 + l'.length := hlen
      rw [List.length_append, List.length_singleton] at hlen'
      rw [hwritten, List.length_nil] at hcount
      exact List.eq_nil_of_length_eq_zero (by omega)
    · -- behind the last packet
      have hend := Leads.last (c := none) hl.leads
      rw [Option.or_none] at hend
      refine ⟨l.getLast?, ?_, hend⟩
      cases l.getLast? with
      | none => rw [linkTo, ListLink.at, if_pos rfl]
      | some x => rfl
  | _ => trivial

omit [DecidableEq α] in
/-- `lfq_send` starts. -/
theorem Lists.sendStep (h : s.Lists start l) (hidle : s.sender = .put .idle) (hpkt : pkt ∉ l) :
    (s.sendStep pkt).Lists start l ∧ (s.sendStep pkt).withList l = s.withList l := by
  unfold Lists at h
  rw [hidle] at h
  refine ⟨⟨h.1, hpkt, h.2⟩, ?_⟩
  unfold withList
  rw [hidle]
  rfl

/-- **The receiver stores to the `prev` of the list head**, which it maps where the sender
does. -/
theorem Lists.update_prev (h : s.Lists start l) :
    Lists start { s with prev := Function.update s.prev none (.head start) } l := by
  have hchained : ∀ {l}, Chained start s.next s.prev l →
      Chained start s.next (Function.update s.prev none (.head start)) l := fun hl =>
    hl.update_prev (fun x _ => (Option.some_ne_none x).symm) _
  have hlast : ∀ l, LastIs start (Function.update s.prev none (.head start) none) l := fun l =>
    Or.inl (Function.update_self none _ s.prev)
  have hpacket : ∀ x, Function.update s.prev none (.head start) (some x) = s.prev (some x) :=
    fun x => Function.update_of_ne (Option.some_ne_none x) _ _
  unfold Lists at h ⊢
  dsimp only
  cases hpc : s.sender with
  | put pc => rw [hpc] at h; exact ⟨hchained h.1, hlast l⟩
  | first v => rw [hpc] at h; exact ⟨hchained h.1, hlast l, h.2.2⟩
  | delPrev v pkt next prev =>
    rw [hpc] at h
    obtain ⟨rest, hl, hc, -, hrest⟩ := h
    exact ⟨rest, hl, hchained hc, hlast l, hrest⟩
  | delNext v pkt next prev =>
    rw [hpc] at h
    obtain ⟨rest, hl, hc, -, hnext, hprev, hfirst⟩ := h
    exact ⟨rest, hl, hchained hc, hlast rest, hnext, hprev,
      fun x hx => (hpacket x).trans (hfirst x hx)⟩
  | slot v pkt =>
    rw [hpc] at h
    obtain ⟨rest, hl, hc, -⟩ := h
    exact ⟨rest, hl, hchained hc, hlast rest⟩
  | addPrev pkt prev => rw [hpc] at h; exact ⟨hchained h.1, h.2⟩
  | addOwnNext pkt prev =>
    rw [hpc] at h
    exact ⟨hchained h.1, h.2.1, h.2.2.1, hlast [pkt]⟩
  | addOwnPrev pkt prev =>
    rw [hpc] at h
    obtain ⟨hl, hpkt, hprev, -, hnext⟩ := h
    exact ⟨hchained hl, hpkt, hprev, hlast [pkt], hnext⟩
  | addNext pkt prev =>
    rw [hpc] at h
    obtain ⟨hl, hpkt, hprev, -, hnext, hown⟩ := h
    exact ⟨hchained hl, hpkt, hprev, hlast [pkt], hnext, (hpacket pkt).trans hown⟩
  | wild => rw [hpc] at h; exact absurd h id

end Steps

/-- **A step of the receiver** does not read the list. -/
theorem withList_getStep (s : SharedLink α) (l : List α) :
    s.getStep.withList l = (s.withList l).getStep := by
  have hget : ∀ l, (s.withList l).get = s.get := fun _ => rfl
  unfold getStep LfqLink.getStep
  rw [hget, hget]
  cases s.get with
  | idle => rfl
  | tail head => rfl
  | loop head tail i count =>
    by_cases hend : i = tail <;> simp [withList, stepTo, hend]
  | cas head i =>
    by_cases hsame : s.head = head <;> simp [withList, stepTo, hsame]
  | failed => rfl

theorem Lists.getStep (h : s.Lists start l) : s.getStep.Lists start l := h

end Sender

end SharedLink
