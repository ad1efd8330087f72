import Ustack.Conservation

/-!
# The order of packets

Packets that one process takes from one receive ring, and that one process puts on one
transmit ring, are put there in the order they were taken. They may belong to any flow.

What is on its way from the receive ring `a` of process `P` to the transmit ring `b` of
process `Q` stands in one line of lists (`World.path`): the pool of the transmit ring
first, the pool of the receive ring last, and between them `recv_from_driver` if `P` is
`Q`, and otherwise the two ends of the queue and the lists at them. A stage takes packets
off the front of one of these lists and puts them at the end of the list before it, or out
of the line. Of `recv_from_driver` only what the dispatcher is still to look at is in the
line to another process: it passes over the packets it keeps.

The packets of the line are numbered as they were received (`World.chain`), and the numbers
go up. Packets received elsewhere stand between them and do not count; for that a
packet must say where it was received last, and no process may process a packet that
another returned to it.
-/

/-! ## The line -/

/-- What `dispatch_packet` is still to look at of `recv_from_driver`, and what is received
for it. -/
def MainPc.ahead (recv_from_driver : List ℕ) : MainPc → List ℕ
  | .dispatch k => recv_from_driver.drop k
  | .flush .dispatch _ | .lfqRecv _ | .dispatched _ | .processDriver => []
  | _ => recv_from_driver

/-- The part of `recv_from_dispatch` that `dispatch_packet` left there to process. -/
def MainPc.foreign (recv_from_dispatch : List ℕ) : MainPc → List ℕ
  | .dispatched k => recv_from_dispatch.take k
  | .processDriver | .processDispatch => recv_from_dispatch
  | _ => []

/-- What a process may still dispatch to others. -/
def Process.ahead {A : ℕ} (p : Process A) : List ℕ := p.pc.ahead p.recv_from_driver

/-- What a process is to process for others. -/
def Process.foreign {A : ℕ} (p : Process A) : List ℕ := p.pc.foreign p.recv_from_dispatch

/-- The places in a line. -/
def ProcPlace.InLine {A : ℕ} : ProcPlace A → Prop
  | .rxPool _ | .txPool _ | .recvFromDriver | .recvFromDispatch => True
  | _ => False

/-- A step of a process that puts nothing in a line. -/
structure Process.Quiet {A : ℕ} (owner : ℕ → ℕ) (i : ℕ) (p p' : Process A) : Prop where
  /-- Nothing joins a line. -/
  line : ∀ z, z.InLine → (p'.contents z).Sublist (p.contents z)
  /-- Nothing is put back for the dispatcher. -/
  ahead : p'.ahead.Sublist p.ahead
  /-- Nothing of its own is put where it processes packets of others. -/
  foreign : ∀ q ∈ p'.foreign, q ∈ p.foreign ∨ owner q ≠ i

/-- A step that leaves the places in a line as they are. -/
theorem Process.Quiet.of_same {A : ℕ} {owner : ℕ → ℕ} {i : ℕ} {p p' : Process A}
    (h : ∀ z, z.InLine → p'.contents z = p.contents z)
    (hahead : ∀ l, p'.pc.ahead l = p.pc.ahead l)
    (hforeign : ∀ l, p'.pc.foreign l = [] ∨ p'.pc.foreign l = p.pc.foreign l) :
    p.Quiet owner i p' := by
  refine ⟨fun z hz => ?_, ?_, fun q hq => Or.inl ?_⟩
  · rw [h z hz]
  · have hdriver : p'.recv_from_driver = p.recv_from_driver := h .recvFromDriver trivial
    rw [Process.ahead, Process.ahead, hahead, hdriver]
  · have hdispatch : p'.recv_from_dispatch = p.recv_from_dispatch := h .recvFromDispatch trivial
    rw [Process.foreign, hdispatch] at hq
    obtain hnil | hsame := hforeign p.recv_from_dispatch
    · rw [hnil] at hq
      exact absurd hq List.not_mem_nil
    · rwa [hsame] at hq

/-- The number of a reception from receive ring `a` of process `P`. -/
def Reception.serialFrom {n A : ℕ} (P : Fin n) (a : Fin A) (r : Reception n A) : Option ℕ :=
  if r.proc = P ∧ r.adapter = a then some r.serial else none

namespace World

open Ledger

variable {n A : ℕ}

/-- The number of a packet received last from receive ring `a` of process `P`. -/
def serialFrom (w : World n A) (P : Fin n) (a : Fin A) (q : ℕ) : Option ℕ :=
  (w.received q).bind (Reception.serialFrom P a)

/-- The places from the transmit ring `b` of process `Q` back to the receive ring `a` of
process `P`. -/
def path (P : Fin n) (a : Fin A) (Q : Fin n) (b : Fin A) : List (Place n A) :=
  if P = Q then [.proc Q (.txPool b), .proc P .recvFromDriver, .proc P (.rxPool a)]
  else [.proc Q (.txPool b), .proc Q .recvFromDispatch, .slots Q P, .pending Q P,
    .proc P .recvFromDriver, .proc P (.rxPool a)]

/-- What is in a place on the way from process `P` to process `Q`. -/
def view (w : World n A) (P Q : Fin n) : Ledger (Place n A) ℕ := fun x =>
  if P ≠ Q ∧ x = .proc P .recvFromDriver then (w.proc P).ahead else w.contents x

/-- **The numbers of the packets from receive ring `a` of process `P` to transmit ring `b`
of process `Q`**: of those put on the ring, then of those on their way. -/
def chain (w : World n A) (P : Fin n) (a : Fin A) (Q : Fin n) (b : Fin A) : List ℕ :=
  (w.tx_log Q b).filterMap (Reception.serialFrom P a)
    ++ ((path P a Q b).flatMap (w.view P Q)).filterMap (w.serialFrom P a)

section Path

variable {P Q i r c : Fin n} {a b d : Fin A} {x : ProcPlace A}

theorem mem_path_txPool : (.proc i (.txPool d) : Place n A) ∈ path P a Q b ↔ i = Q ∧ d = b := by
  unfold path
  split <;> simp

theorem mem_path_rxPool : (.proc i (.rxPool d) : Place n A) ∈ path P a Q b ↔ i = P ∧ d = a := by
  unfold path
  split <;> simp

theorem mem_path_recvFromDriver :
    (.proc i .recvFromDriver : Place n A) ∈ path P a Q b ↔ i = P := by
  unfold path
  split <;> simp

theorem mem_path_recvFromDispatch :
    (.proc i .recvFromDispatch : Place n A) ∈ path P a Q b ↔ P ≠ Q ∧ i = Q := by
  unfold path
  split <;> simp [*]

theorem mem_path_slots : (.slots r c : Place n A) ∈ path P a Q b ↔ P ≠ Q ∧ r = Q ∧ c = P := by
  unfold path
  split <;> simp [*]

theorem mem_path_pending :
    (.pending r c : Place n A) ∈ path P a Q b ↔ P ≠ Q ∧ r = Q ∧ c = P := by
  unfold path
  split <;> simp [*]

theorem inLine_of_mem_path (h : (.proc i x : Place n A) ∈ path P a Q b) : x.InLine := by
  unfold path at h
  cases x with
  | rxPool | txPool | recvFromDriver | recvFromDispatch => trivial
  | _ => split at h <;> simp at h

theorem nodup_path (P : Fin n) (a : Fin A) (Q : Fin n) (b : Fin A) : (path P a Q b).Nodup := by
  unfold path
  split <;> simp

end Path

variable {w t : World n A} {P Q i : Fin n} {a b : Fin A} {x y : Place n A} {moved : List ℕ}

theorem view_of_ne {z : Place n A} (h : P = Q ∨ z ≠ .proc P .recvFromDriver) :
    w.view P Q z = w.contents z := by
  rw [view, if_neg (by tauto)]

theorem view_driver (h : P ≠ Q) : w.view P Q (.proc P .recvFromDriver) = (w.proc P).ahead := by
  rw [view, if_pos ⟨h, rfl⟩]

/-- **Nothing joins the line.** -/
theorem chain_sublist (hlog : t.tx_log Q b = w.tx_log Q b) (hrec : t.received = w.received)
    (hahead : ((t.proc P).ahead.filterMap (w.serialFrom P a)).Sublist
      ((w.proc P).ahead.filterMap (w.serialFrom P a)))
    (hz : ∀ z ∈ path P a Q b, ((t.contents z).filterMap (w.serialFrom P a)).Sublist
      ((w.contents z).filterMap (w.serialFrom P a))) :
    (t.chain P a Q b).Sublist (w.chain P a Q b) := by
  have hserial : t.serialFrom P a = w.serialFrom P a := by
    funext q
    rw [serialFrom, serialFrom, hrec]
  rw [chain, chain, hlog, hserial]
  refine (List.Sublist.refl _).append (filterMap_sublist _ _ (fun z hmem => ?_))
  unfold view
  split
  · exact hahead
  · exact hz z hmem

/-- **Packets pass on in the line.** -/
theorem chain_pass {before after : List (Place n A)} (moved : List ℕ)
    (hpath : path P a Q b = before ++ y :: x :: after) (hlog : t.tx_log = w.tx_log)
    (hrec : t.received = w.received) (hx : w.view P Q x = moved ++ t.view P Q x)
    (hy : t.view P Q y = w.view P Q y ++ moved)
    (hother : ∀ z, z ≠ x → z ≠ y → t.view P Q z = w.view P Q z) :
    (t.chain P a Q b).Sublist (w.chain P a Q b) := by
  have hserial : t.serialFrom P a = w.serialFrom P a := by
    funext q
    rw [serialFrom, serialFrom, hrec]
  have hnodup := nodup_path P a Q b
  rw [hpath] at hnodup
  obtain ⟨-, htail, hdisj⟩ := List.nodup_append.mp hnodup
  obtain ⟨hy', htail'⟩ := List.nodup_cons.mp htail
  have hbefore : ∀ z ∈ before, t.view P Q z = w.view P Q z := fun z hz =>
    hother z (fun he => hdisj z hz x (by simp) he) (fun he => hdisj z hz y (by simp) he)
  have hafter : ∀ z ∈ after, t.view P Q z = w.view P Q z := fun z hz =>
    hother z (fun he => (List.nodup_cons.mp htail').1 (he ▸ hz))
      (fun he => hy' (List.mem_cons_of_mem x (he ▸ hz)))
  rw [chain, chain, hlog, hserial, hpath, flatMap_pass hx hy hbefore hafter]

/-! ## Steps that receive nothing -/

/-- **Nothing is received, and the lines go on or give up packets.** -/
structure Follows (owner : ℕ → ℕ) (w t : World n A) : Prop where
  /-- No packet is received. -/
  received : t.received = w.received
  /-- So none is counted. -/
  count : t.count = w.count
  /-- The lines go on, or give up packets. -/
  chain : ∀ P a Q b, (t.chain P a Q b).Sublist (w.chain P a Q b)
  /-- So do the pools of the receive rings. -/
  rxPool : ∀ i a q, q ∈ t.contents (.proc i (.rxPool a)) → q ∈ w.contents (.proc i (.rxPool a))
  /-- A process is to process no packet that was returned to it. -/
  foreign : ∀ i : Fin n, ∀ q ∈ (t.proc i).foreign, q ∈ (w.proc i).foreign ∨ owner q ≠ i

section Steps

variable {items : Set ℕ} {owner : ℕ → ℕ} {p' : Process A} {pos k : ℕ} {e : Env n}

/-- What a process that takes the step does to the lines it is in, and to no other. -/
theorem Follows.of_proc (hproc : t.proc = Function.update w.proc i p') (hcount : t.count = w.count)
    (hrec : t.received = w.received) (hrx : ∀ a, ∀ q ∈ p'.contents (.rxPool a),
      q ∈ (w.proc i).contents (.rxPool a))
    (hforeign : ∀ q ∈ p'.foreign, q ∈ (w.proc i).foreign ∨ owner q ≠ i)
    (hchain : ∀ P a Q b, (t.chain P a Q b).Sublist (w.chain P a Q b)) : Follows owner w t := by
  refine ⟨hrec, hcount, hchain, fun j a q hq => ?_, fun j q hq => ?_⟩
  · rw [contents, hproc] at hq
    by_cases hj : j = i
    · subst hj
      rw [Function.update_self] at hq
      exact hrx a q hq
    · rwa [Function.update_of_ne hj] at hq
  · rw [hproc] at hq
    by_cases hj : j = i
    · subst hj
      rw [Function.update_self] at hq
      exact hforeign q hq
    · rw [Function.update_of_ne hj] at hq
      exact Or.inl hq

theorem ahead_sublist {q : Process A} (hproc : t.proc = Function.update w.proc i q)
    (h : q.ahead.Sublist (w.proc i).ahead) (P : Fin n) :
    (t.proc P).ahead.Sublist (w.proc P).ahead := by
  rw [hproc]
  by_cases hP : P = i
  · subst hP
    rw [Function.update_self]
    exact h
  · rw [Function.update_of_ne hP]

/-- A quiet step of a process. -/
theorem Follows.of_quiet (h : Process.Quiet owner i (w.proc i) p')
    (hproc : t.proc = Function.update w.proc i p') (hlink : t.link = w.link)
    (hlog : t.tx_log = w.tx_log) (hrec : t.received = w.received) (hcount : t.count = w.count) :
    Follows owner w t := by
  refine .of_proc hproc hcount hrec (fun a q hq => (h.line (.rxPool a) trivial).subset hq)
    h.foreign (fun P a Q b => chain_sublist (by rw [hlog]) hrec
      ((ahead_sublist hproc h.ahead P).filterMap _)
      (fun z hz => List.Sublist.filterMap _ ?_))
  cases z with
  | proc j z =>
    rw [contents, contents, hproc]
    by_cases hj : j = i
    · subst hj
      rw [Function.update_self]
      exact h.line z (inLine_of_mem_path hz)
    · rw [Function.update_of_ne hj]
  | pending r c => rw [contents, contents, hlink]
  | slots r c => rw [contents, contents, hlink]

/-- **Packets leave a line**, or join it without counting. -/
theorem chain_leave (hlog : t.tx_log = w.tx_log) (hrec : t.received = w.received)
    (hm : Move w.contents t.contents x y moved) (hx : (t.contents x).Sublist (w.contents x))
    (hahead : ((t.proc P).ahead.filterMap (w.serialFrom P a)).Sublist
      ((w.proc P).ahead.filterMap (w.serialFrom P a)))
    (hy : y ∈ path P a Q b → t.contents y = w.contents y ++ moved
      ∧ ∀ q ∈ moved, w.serialFrom P a q = none) :
    (t.chain P a Q b).Sublist (w.chain P a Q b) := by
  refine chain_sublist (by rw [hlog]) hrec hahead (fun z hz => ?_)
  by_cases hzy : z = y
  · subst hzy
    obtain ⟨hgiven, hnone⟩ := hy hz
    rw [hgiven, List.filterMap_append, List.filterMap_eq_nil_iff.mpr hnone, List.append_nil]
  · by_cases hzx : z = x
    · rw [hzx]
      exact hx.filterMap _
    · rw [hm.other z hzx hzy]

/-- Where every packet was received last by its owner, a packet of another process does not
count. -/
theorem serialFrom_eq_none (hst : ∀ q r, w.received q = some r → owner q = r.proc) {q : ℕ}
    (hq : owner q ≠ P) : w.serialFrom P a q = none := by
  rw [serialFrom]
  cases hr : w.received q with
  | none => rfl
  | some r =>
    rw [Option.bind_some, Reception.serialFrom, if_neg]
    rintro ⟨rfl, -⟩
    exact hq (hst q r hr)

/-- Going elsewhere. -/
theorem Follows.goto {pc : MainPc} (hahead : ((w.proc i).goto pc).ahead.Sublist (w.proc i).ahead)
    (hforeign : ∀ q ∈ ((w.proc i).goto pc).foreign, q ∈ (w.proc i).foreign ∨ owner q ≠ i) :
    Follows owner w (w.goto i pc) := by
  have hq : Process.Quiet owner i (w.proc i) ((w.proc i).goto pc) :=
    ⟨fun _ _ => List.Sublist.refl _, hahead, hforeign⟩
  exact .of_quiet hq rfl rfl rfl rfl rfl

/-- Going from a stage where the dispatcher is still to look at everything, or has nothing
left, to another. -/
theorem Follows.goto_same {pc : MainPc}
    (hahead : ∀ l, pc.ahead l = (w.proc i).pc.ahead l) (hforeign : ∀ l, pc.foreign l = []) :
    Follows owner w (w.goto i pc) := by
  have hquiet : Process.Quiet owner i (w.proc i) ((w.proc i).goto pc) :=
    .of_same (fun _ _ => rfl) hahead (fun l => Or.inl (hforeign l))
  exact .of_quiet hquiet rfl rfl rfl rfl rfl

/-- A stage that moves packets between places outside the lines. -/
theorem Follows.stage {x y : ProcPlace A} {pc : MainPc} {q : Option (Process A)} (hq : q = some p')
    (hm : Move (w.proc i).contents p'.contents x y moved) (hx : ¬ x.InLine) (hy : ¬ y.InLine)
    (hahead : ∀ l, pc.ahead l = (w.proc i).pc.ahead l) (hforeign : ∀ l, pc.foreign l = []) :
    Follows owner w (w.stage i pc q) := by
  subst hq
  have hquiet : Process.Quiet owner i (w.proc i) (p'.goto pc) :=
    .of_same (fun z hz => hm.other z (fun he => hx (he ▸ hz)) (fun he => hy (he ▸ hz))) hahead
      (fun l => Or.inl (hforeign l))
  exact .of_quiet hquiet rfl rfl rfl rfl rfl

theorem Follows.zoneReclaimFree {rest : List ℕ} :
    Follows owner w (w.zoneReclaimFree i pos rest) := by
  have hquiet : Process.Quiet owner i (w.proc i) { w.proc i with
      free_head := rest
      free_packet_pool := packetPoolPut (w.proc i).free_packet_pool pos } :=
    .of_same (fun z hz => by cases z <;> first | rfl | exact absurd hz id) (fun _ => rfl)
      (fun _ => Or.inr rfl)
  exact .of_quiet hquiet rfl rfl rfl rfl rfl

theorem Follows.zoneReclaim {rest : List ℕ} : Follows owner w (w.zoneReclaim i pos rest) := by
  have hquiet : Process.Quiet owner i (w.proc i) { w.proc i with
      to_reclaim := rest
      free_packet_pool := packetPoolPut (w.proc i).free_packet_pool pos } :=
    .of_same (fun z hz => by cases z <;> first | rfl | exact absurd hz id) (fun _ => rfl)
      (fun _ => Or.inr rfl)
  exact .of_quiet hquiet rfl rfl rfl rfl rfl

theorem Follows.timerExpire (hpc : (w.proc i).pc = .timerExpire) (now : ℕ) :
    Follows owner w (w.timerExpire i now) := by
  have hquiet : Process.Quiet owner i (w.proc i) { w.proc i with
      tables := connectionTimerExpire (w.proc i).tables now, pc := .allocRx 0 } :=
    .of_same (fun z _ => by cases z <;> rfl) (fun _ => by rw [hpc]; rfl) (fun _ => Or.inl rfl)
  exact .of_quiet hquiet rfl rfl rfl rfl rfl

/-- The NIC takes and gives no packet. -/
theorem Follows.nicRecv (w : World n A) (i : Fin n) (a : Fin A) (k : ℕ) (len : UInt16)
    (frame : Memory) : Follows owner w (w.nicRecv i a k len frame) := by
  have hquiet : Process.Quiet owner i (w.proc i)
      ((w.proc i).setRx a (((w.proc i).adapter a).rx_ring.complete k len)) :=
    .of_same (fun z _ => congrFun (Process.contents_nicRecv _ a k len) z) (fun _ => rfl)
      (fun _ => Or.inr rfl)
  unfold World.nicRecv
  dsimp only
  split <;> exact .of_quiet hquiet rfl rfl rfl rfl rfl

theorem Follows.nicSent (w : World n A) (i : Fin n) (a : Fin A) (k : ℕ) :
    Follows owner w (w.nicSent i a k) := by
  have hquiet : Process.Quiet owner i (w.proc i) ((w.proc i).setTx a
      (((w.proc i).adapter a).tx_ring.complete k (((w.proc i).adapter a).tx_ring.length k))) :=
    .of_same (fun z _ => congrFun (Process.contents_nicSent _ a k) z) (fun _ => rfl)
      (fun _ => Or.inr rfl)
  exact .of_quiet hquiet rfl rfl rfl rfl rfl

theorem Follows.filter (hpc : (w.proc i).pc = .filter k) (garbage : UInt16 × UInt16) :
    Follows owner w (w.filter i k pos garbage) := by
  unfold World.filter
  generalize packetRecvInit garbage (w.packet pos) = res
  obtain ⟨ret, pkt⟩ := res
  cases ret with
  | true =>
    have hquiet : Process.Quiet owner i (w.proc i) ((w.proc i).goto (.filter (k + 1))) := by
      refine ⟨fun _ _ => List.Sublist.refl _, ?_, fun q hq => absurd hq List.not_mem_nil⟩
      rw [Process.ahead, Process.ahead, hpc]
      exact List.Sublist.refl _
    exact .of_quiet hquiet rfl rfl rfl rfl rfl
  | false =>
    have hquiet : Process.Quiet owner i (w.proc i) { w.proc i with
        recv_from_driver := (w.proc i).recv_from_driver.eraseIdx k
        free_head := (w.proc i).free_head ++ [pos] } := by
      refine ⟨fun z hz => ?_, ?_, fun q hq => Or.inl hq⟩
      · cases z with
        | recvFromDriver => exact List.eraseIdx_sublist _ _
        | freeHead => exact absurd hz id
        | _ => exact List.Sublist.refl _
      · rw [Process.ahead, Process.ahead, hpc]
        exact List.eraseIdx_sublist _ _
    exact .of_quiet hquiet rfl rfl rfl rfl rfl

theorem Follows.dispatched (h : w.Inv items owner) (hpc : (w.proc i).pc = .dispatched k)
    (hpos : (w.proc i).recv_from_dispatch[k]? = some pos)
    (hrun : w.dispatched i k pos = some t) : Follows owner w t := by
  obtain ⟨hk, hget⟩ := List.getElem?_eq_some_iff.mp hpos
  have hstate : (w.packet pos).lfq_state = queuedState i (owner pos) :=
    h.fits_proc (x := .recvFromDispatch) (List.mem_of_getElem? hpos)
  unfold World.dispatched at hrun
  unfold queuedState at hstate
  split at hstate
  · simp only [hstate] at hrun
    obtain rfl := Option.some.inj hrun
    have hquiet : Process.Quiet owner i (w.proc i) { w.proc i with
        recv_from_dispatch := (w.proc i).recv_from_dispatch.eraseIdx k
        free_head := (w.proc i).free_head ++ [pos] } := by
      refine ⟨fun z hz => ?_, List.Sublist.refl _, fun q hq => Or.inl ?_⟩
      · cases z with
        | recvFromDispatch => exact List.eraseIdx_sublist _ _
        | freeHead => exact absurd hz id
        | _ => exact List.Sublist.refl _
      · rw [Process.foreign, hpc] at hq ⊢
        have hq' : q ∈ ((w.proc i).recv_from_dispatch.eraseIdx k).take k := hq
        rwa [List.take_eraseIdx_eq_take_of_le _ _ _ le_rfl] at hq'
    exact .of_quiet hquiet rfl rfl rfl rfl rfl
  · rename_i howner
    simp only [hstate] at hrun
    obtain rfl := Option.some.inj hrun
    refine .goto ?_ (fun q hq => ?_)
    · rw [Process.ahead, Process.ahead, hpc]
      exact List.Sublist.refl _
    · rw [Process.foreign, hpc]
      have hq' : q ∈ (w.proc i).recv_from_dispatch.take (k + 1) := hq
      rw [List.take_succ_eq_append_getElem hk, List.mem_append, List.mem_singleton, hget] at hq'
      exact hq'.imp_right (fun he => by rw [he]; exact howner)

/-! ### Passing on -/

/-- A line ends with what was received. -/
theorem path_received (P : Fin n) (a : Fin A) (Q : Fin n) (b : Fin A) :
    ∃ before, path P a Q b
      = before ++ [.proc P .recvFromDriver, .proc P (.rxPool a)] := by
  unfold path
  split
  · exact ⟨[.proc Q (.txPool b)], rfl⟩
  · exact ⟨[.proc Q (.txPool b), .proc Q .recvFromDispatch, .slots Q P, .pending Q P], rfl⟩

/-- Places other than those of a move, and other than what the dispatcher looks at, look the
same. -/
theorem view_of_move (hm : Move w.contents t.contents x y moved)
    (hahead : P ≠ Q → x = .proc P .recvFromDriver ∨ y = .proc P .recvFromDriver
      ∨ (t.proc P).ahead = (w.proc P).ahead) {z : Place n A} (hx : z ≠ x) (hy : z ≠ y) :
    t.view P Q z = w.view P Q z := by
  by_cases hz : P ≠ Q ∧ z = .proc P .recvFromDriver
  · obtain ⟨hPQ, rfl⟩ := hz
    rw [view_driver hPQ, view_driver hPQ]
    exact ((hahead hPQ).resolve_left hx.symm).resolve_left hy.symm
  · rw [view, view, if_neg hz, if_neg hz]
    exact hm.other z hx hy

theorem Follows.getReceived (h : w.Inv items owner)
    (hst : ∀ a : Fin A, ∀ q ∈ (w.proc i).contents (.rxPool a),
      ∃ serial, w.received q = some ⟨i, a, serial⟩) {d : ℕ}
    (hpc : (w.proc i).pc = .received d) (a : Fin A) :
    Follows owner w (w.setProc i ((driverGetReceivedPackets (w.proc i) a).goto
      (.received (a + 1)))) := by
  obtain ⟨-, hm, hnil, hrecv⟩ := driverGetReceivedPackets_spec (h.proc i).rings a
  generalize driverGetReceivedPackets (w.proc i) a = p' at hm hnil hrecv
  have hm' : Move w.contents (w.setProc i (p'.goto (.received (a + 1)))).contents
      (.proc i (.rxPool a)) (.proc i .recvFromDriver) ((w.proc i).contents (.rxPool a)) :=
    move_proc rfl rfl hm
  have hahead : (w.proc i).ahead = (w.proc i).recv_from_driver := by
    rw [Process.ahead, hpc]
    rfl
  have hahead' : ((w.setProc i (p'.goto (.received (a + 1)))).proc i).ahead
      = (w.proc i).ahead ++ (w.proc i).contents (.rxPool a) := by
    rw [proc_setProc, hahead, ← hrecv]
    rfl
  refine .of_proc rfl rfl rfl (fun a' q hq => ?_) (fun q hq => absurd hq List.not_mem_nil)
    (fun P a' Q b => ?_)
  · by_cases ha : a' = a
    · subst ha
      rw [Process.contents_goto, hnil] at hq
      exact absurd hq List.not_mem_nil
    · rwa [Process.contents_goto,
        hm.other _ (fun he => ha (by simpa using he)) (by simp)] at hq
  · by_cases hP : i = P ∧ a = a'
    · obtain ⟨rfl, rfl⟩ := hP
      obtain ⟨before, hpath⟩ := path_received i a Q b
      have hx : w.view i Q (.proc i (.rxPool a)) = (w.proc i).contents (.rxPool a)
          ++ (w.setProc i (p'.goto (.received (a + 1)))).view i Q (.proc i (.rxPool a)) := by
        rw [view_of_ne (Or.inr (by simp)), view_of_ne (Or.inr (by simp)), contents_proc_self,
          Process.contents_goto, hnil, List.append_nil]
        rfl
      refine chain_pass _ hpath rfl rfl hx ?_ (fun z hx hy =>
        view_of_move hm' (fun _ => Or.inr (Or.inl rfl)) hx hy)
      by_cases hQ : i = Q
      · rw [view_of_ne (Or.inl hQ), view_of_ne (Or.inl hQ), contents_proc_self]
        exact hrecv
      · rw [view_driver hQ, view_driver hQ]
        exact hahead'
    · have hnone : i = P → ∀ q ∈ (w.proc i).contents (.rxPool a), w.serialFrom P a' q = none := by
        rintro rfl q hq
        obtain ⟨serial, hr⟩ := hst a q hq
        rw [serialFrom, hr, Option.bind_some, Reception.serialFrom, if_neg]
        rintro ⟨-, ha⟩
        exact hP ⟨rfl, ha⟩
      refine chain_leave rfl rfl hm' ?_ ?_ (fun hy => ?_)
      · rw [contents_proc_self]
        show (p'.contents (.rxPool a)).Sublist _
        rw [hnil]
        exact List.nil_sublist _
      · by_cases hi : P = i
        · subst hi
          rw [hahead', List.filterMap_append, List.filterMap_eq_nil_iff.mpr (hnone rfl),
            List.append_nil]
        · rw [proc_setProc_of_ne _ _ hi]
      · refine ⟨?_, hnone (mem_path_recvFromDriver.mp hy)⟩
        rw [contents_proc_self]
        exact hrecv

/-- What is sent is at the end of the list. -/
theorem contents_sendTo_pending (w : World n A) (i r : Fin n) (pos : ℕ) :
    (w.lfqSendTo i pos r).contents (.pending r i) = w.contents (.pending r i) ++ [pos] := by
  rw [contents, lfqSendTo, link_setLink]
  rfl

/-- Of `recv_from_driver` what the dispatcher passed over is not in the line. -/
theorem Follows.dispatch (hpc : (w.proc i).pc = .dispatch k)
    (hpos : (w.proc i).recv_from_driver[k]? = some pos) (id : Fin n) :
    Follows owner w (w.dispatch i k pos id) := by
  obtain ⟨hk, hget⟩ := List.getElem?_eq_some_iff.mp hpos
  have hahead : (w.proc i).ahead = [pos] ++ (w.proc i).recv_from_driver.drop (k + 1) := by
    rw [Process.ahead, hpc]
    show (w.proc i).recv_from_driver.drop k = _
    rw [List.drop_eq_getElem_cons hk, hget]
    rfl
  unfold World.dispatch
  dsimp only
  split
  · let p' : Process A := { w.proc i with
      recv_from_driver := (w.proc i).recv_from_driver.eraseIdx k }
    have hahead' : p'.ahead = (w.proc i).recv_from_driver.drop (k + 1) := by
      rw [Process.ahead, show p'.pc = .dispatch k from hpc]
      show ((w.proc i).recv_from_driver.eraseIdx k).drop k = _
      rw [List.eraseIdx_eq_take_drop_succ]
      exact List.drop_left' (List.length_take_of_le hk.le)
    have hother : ∀ z, z ≠ .recvFromDriver → p'.contents z = (w.proc i).contents z := fun z hz =>
      Process.contents_setRecvFromDriver_of_ne (w.proc i) _ hz
    have hx : p'.contents .recvFromDriver = ((w.proc i).contents .recvFromDriver).eraseIdx k := rfl
    have hm := move_sendTo (r := id) (packetSetLfqState (w.packet pos) .dispatch)
      (x := .recvFromDriver) hpos hx hother
    have hrx : ∀ a, ∀ q ∈ p'.contents (.rxPool a), q ∈ (w.proc i).contents (.rxPool a) :=
      fun a q hq => by rwa [hother _ (by simp)] at hq
    have hforeign : ∀ q ∈ p'.foreign, q ∈ (w.proc i).foreign ∨ owner q ≠ i := fun q hq =>
      Or.inl hq
    refine .of_proc rfl rfl rfl hrx hforeign (fun P a Q b => ?_)
    by_cases hy : P ≠ Q ∧ id = Q ∧ i = P
    · obtain ⟨hPQ, rfl, rfl⟩ := hy
      have hpath : path i a id b = [.proc id (.txPool b), .proc id .recvFromDispatch, .slots id i]
          ++ .pending id i :: .proc i .recvFromDriver :: [.proc i (.rxPool a)] := by
        rw [path, if_neg hPQ]
        rfl
      refine chain_pass [pos] hpath rfl rfl ?_ ?_ (fun z hx hy =>
        view_of_move hm (fun _ => Or.inl rfl) hx hy)
      · rw [view_driver hPQ, view_driver hPQ, hahead, ← hahead']
        exact congrArg ([pos] ++ ·) (congrArg Process.ahead (proc_setProc w i p')).symm
      · rw [view_of_ne (Or.inr (by simp)), view_of_ne (Or.inr (by simp))]
        exact contents_sendTo_pending _ _ _ _
    · refine chain_leave rfl rfl hm ?_ ?_ (fun hmem => absurd (mem_path_pending.mp hmem) hy)
      · exact (congrArg (List.Sublist · _) (contents_proc_self (w := w) (q := p')
          .recvFromDriver)).mpr (List.eraseIdx_sublist _ _)
      · refine (ahead_sublist (q := p') rfl ?_ P).filterMap _
        rw [hahead, hahead']
        exact List.sublist_append_right [pos] _
  · refine .goto ?_ (fun q hq => absurd hq List.not_mem_nil)
    rw [hahead]
    exact List.sublist_append_right [pos] _

/-- A packet returned to its owner does not count where it goes. -/
theorem Follows.dispatchReclaim (h : w.Inv items owner)
    (hst : ∀ q r, w.received q = some r → owner q = r.proc)
    (hpc : (w.proc i).pc = .dispatchReclaim k) (hpos : (w.proc i).to_reclaim[k]? = some pos)
    (hrun : w.dispatchReclaim i k pos = some t) : Follows owner w t := by
  have hid := h.id pos (h.mem_items (x := .toReclaim) (List.mem_of_getElem? hpos))
  unfold World.dispatchReclaim at hrun
  dsimp only at hrun
  split at hrun
  · rename_i hne
    split at hrun
    · rename_i hlt
      obtain rfl := Option.some.inj hrun
      let p' : Process A := { w.proc i with to_reclaim := (w.proc i).to_reclaim.eraseIdx k }
      have hother : ∀ z, z ≠ .toReclaim → p'.contents z = (w.proc i).contents z := fun z hz =>
        Process.contents_setToReclaim_of_ne (w.proc i) _ hz
      have hx : p'.contents .toReclaim = ((w.proc i).contents .toReclaim).eraseIdx k := rfl
      have hm := move_sendTo (r := ⟨_, hlt⟩) (packetSetLfqState (w.packet pos) .reclaim)
        (x := .toReclaim) hpos hx hother
      have hrx : ∀ a, ∀ q ∈ p'.contents (.rxPool a), q ∈ (w.proc i).contents (.rxPool a) :=
        fun a q hq => by rwa [hother _ (by simp)] at hq
      have hforeign : ∀ q ∈ p'.foreign, q ∈ (w.proc i).foreign ∨ owner q ≠ i := fun q hq =>
        Or.inl hq
      refine .of_proc rfl rfl rfl hrx hforeign (fun P a Q b => ?_)
      refine chain_leave rfl rfl hm ?_ ((ahead_sublist (q := p') rfl ?_ P).filterMap _)
        (fun hmem => ⟨contents_sendTo_pending _ _ _ _, fun q hq => ?_⟩)
      · exact (congrArg (List.Sublist · _) (contents_proc_self (w := w) (q := p')
          .toReclaim)).mpr (List.eraseIdx_sublist _ _)
      · exact List.Sublist.refl _
      · obtain rfl := List.mem_singleton.mp hq
        obtain ⟨-, -, rfl⟩ := mem_path_pending.mp hmem
        exact serialFrom_eq_none hst (hid ▸ hne)
    · exact absurd hrun (by simp)
  · obtain rfl := Option.some.inj hrun
    exact .goto_same (fun _ => by rw [hpc]; rfl) (fun _ => rfl)

theorem Follows.put (h : w.Inv items owner) {r : Fin n} {site : FlushSite}
    (hpc : (w.proc i).pc = .flush site r) : Follows owner w (w.put i r site) := by
  obtain ⟨moved, hm, hx, hy⟩ := h.move_put (i := i) r site
  obtain ⟨T, W, R, hinv⟩ := h.link r i
  obtain ⟨T', W', hinv'⟩ := hinv.putStep
  have hfailed := hinv'.not_failed.1
  have hahead : ((w.put i r site).proc i).ahead = (w.proc i).ahead := by
    unfold World.put
    rw [World.goto, proc_setProc, Process.ahead, Process.ahead, hpc]
    cases hput : (w.link r i).putStep.put with
    | failed => exact absurd hput hfailed
    | _ => cases site <;> simp [Process.goto, MainPc.ahead, setLink]
  have hforeign : ((w.put i r site).proc i).foreign = [] := by
    unfold World.put
    rw [World.goto, proc_setProc, Process.foreign]
    cases hput : (w.link r i).putStep.put with
    | failed => exact absurd hput hfailed
    | _ => simp [Process.goto, MainPc.foreign]
  obtain ⟨pc, hproc⟩ : ∃ pc, (w.put i r site).proc
      = Function.update w.proc i ((w.proc i).goto pc) := ⟨_, rfl⟩
  rw [hproc, Function.update_self] at hahead hforeign
  refine .of_proc hproc rfl rfl (fun a q hq => hq)
    (fun q hq => absurd (hforeign ▸ hq) List.not_mem_nil) (fun P a Q b => ?_)
  by_cases hmem : P ≠ Q ∧ r = Q ∧ i = P
  · obtain ⟨hPQ, rfl, rfl⟩ := hmem
    have hpath : path i a r b = [.proc r (.txPool b), .proc r .recvFromDispatch]
        ++ .slots r i :: .pending r i :: [.proc i .recvFromDriver, .proc i (.rxPool a)] := by
      rw [path, if_neg hPQ]
      rfl
    refine chain_pass moved hpath rfl rfl ?_ ?_ (fun z hx hy => view_of_move hm
      (fun _ => Or.inr (Or.inr ?_)) hx hy)
    · rw [view_of_ne (Or.inr (by simp)), view_of_ne (Or.inr (by simp))]
      exact hx
    · rw [view_of_ne (Or.inr (by simp)), view_of_ne (Or.inr (by simp))]
      exact hy
    · rw [hproc, Function.update_self]
      exact hahead
  · refine chain_leave rfl rfl hm ?_ ((ahead_sublist hproc ?_ P).filterMap _)
      (fun hmem' => absurd (mem_path_slots.mp hmem') hmem)
    · rw [hx]
      exact List.sublist_append_right _ _
    · rw [hahead]

theorem Follows.get (h : w.Inv items owner)
    (hst : ∀ q r, w.received q = some r → owner q = r.proc) {c : Fin n}
    (hpc : (w.proc i).pc = .lfqRecv c) : Follows owner w (w.get i c) := by
  obtain ⟨moved, hm, hx, hy⟩ := h.move_get (i := i) c
  obtain ⟨T, W, R, hinv⟩ := h.link i c
  obtain ⟨R', hinv'⟩ := hinv.getStep
  have hfailed := hinv'.not_failed.2
  have hahead : ((w.get i c).proc i).ahead = (w.proc i).ahead := by
    unfold World.get
    rw [proc_setProc, Process.ahead, Process.ahead, hpc]
    cases hget : (w.link i c).getStep.get with
    | failed => exact absurd hget hfailed
    | _ => simp [Process.goto, MainPc.ahead]
  have hforeign : ((w.get i c).proc i).foreign = [] := by
    unfold World.get
    rw [proc_setProc, Process.foreign]
    cases hget : (w.link i c).getStep.get with
    | failed => exact absurd hget hfailed
    | _ => simp [Process.goto, MainPc.foreign]
  have hrx : ∀ a, ((w.get i c).proc i).contents (.rxPool a) = (w.proc i).contents (.rxPool a) :=
    fun a => hm.other (.proc i (.rxPool a)) (by simp) (by simp)
  obtain ⟨p', hproc⟩ : ∃ p', (w.get i c).proc = Function.update w.proc i p' := ⟨_, rfl⟩
  rw [hproc, Function.update_self] at hahead hforeign hrx
  refine .of_proc hproc rfl rfl (fun a q hq => hrx a ▸ hq)
    (fun q hq => absurd (hforeign ▸ hq) List.not_mem_nil) (fun P a Q b => ?_)
  by_cases hmem : P ≠ Q ∧ i = Q ∧ c = P
  · obtain ⟨hPQ, rfl, rfl⟩ := hmem
    have hpath : path c a i b = [.proc i (.txPool b)] ++ .proc i .recvFromDispatch :: .slots i c
        :: [.pending i c, .proc c .recvFromDriver, .proc c (.rxPool a)] := by
      rw [path, if_neg hPQ]
      rfl
    refine chain_pass moved hpath rfl rfl ?_ ?_ (fun z hx hy => view_of_move hm
      (fun _ => Or.inr (Or.inr ?_)) hx hy)
    · rw [view_of_ne (Or.inr (by simp)), view_of_ne (Or.inr (by simp))]
      exact hx
    · rw [view_of_ne (Or.inr (by simp)), view_of_ne (Or.inr (by simp))]
      exact hy
    · rw [hproc, Function.update_of_ne hPQ]
  · refine chain_leave rfl rfl hm ?_ ((ahead_sublist hproc ?_ P).filterMap _)
      (fun hmem' => ⟨hy, fun q hq => serialFrom_eq_none hst (fun howner => ?_)⟩)
    · rw [hx]
      exact List.sublist_append_right _ _
    · rw [hahead]
    · -- what comes from `c` belongs to `c` or to the receiver
      obtain ⟨hPQ, rfl⟩ := mem_path_recvFromDispatch.mp hmem'
      obtain ⟨-, hor, -⟩ := h.fits (.slots i c) q (hm.mem_moved hq)
      rw [howner] at hor
      obtain hPi | hPc := hor
      · exact hPQ (Fin.ext hPi)
      · exact hmem ⟨hPQ, rfl, (Fin.ext hPc).symm⟩

/-- **A packet is put in a transmit pool**: the first of a list that stands in the line before
that pool, or a packet that does not count there. -/
theorem Follows.steal {x : ProcPlace A} {d : Fin A} {pkt : Packet} (hxtx : x ≠ .txPool d)
    (hxrx : ∀ a, x ≠ .rxPool a) (hx : (w.proc i).contents x = [pos] ++ p'.contents x)
    (hd : p'.contents (.txPool d) = (w.proc i).contents (.txPool d) ++ [pos])
    (hsame : ∀ z, z ≠ x → z ≠ .txPool d → p'.contents z = (w.proc i).contents z)
    (hahead : p'.ahead.Sublist (w.proc i).ahead)
    (hforeign : ∀ q ∈ p'.foreign, q ∈ (w.proc i).foreign)
    (hnext : ∀ P a, w.serialFrom P a pos = none
      ∨ (P = i ∨ x ≠ .recvFromDriver)
        ∧ ∃ after, path P a i d = [] ++ .proc i (.txPool d) :: .proc i x :: after) :
    Follows owner w ((w.setPacket pos pkt).setProc i p') := by
  have hm : Move (w.proc i).contents p'.contents x (.txPool d) [pos] :=
    ⟨hxtx, List.Perm.of_eq hx, List.Perm.of_eq hd, hsame⟩
  have hm' : Move w.contents ((w.setPacket pos pkt).setProc i p').contents (.proc i x)
      (.proc i (.txPool d)) [pos] := move_proc rfl rfl hm
  have htx : ((w.setPacket pos pkt).setProc i p').contents (.proc i (.txPool d))
      = w.contents (.proc i (.txPool d)) ++ [pos] := by
    rw [contents_proc_self, hd]
    rfl
  have hsub : (p'.contents x).Sublist ((w.proc i).contents x) :=
    hx ▸ List.sublist_append_right [pos] _
  refine .of_proc rfl rfl rfl (fun a q hq => by
    rwa [hsame _ (hxrx a).symm (by simp)] at hq) (fun q hq => Or.inl (hforeign q hq))
    (fun P a Q b => ?_)
  have hleave : (.proc i (.txPool d) ∈ path P a Q b → w.serialFrom P a pos = none) →
      (World.chain ((w.setPacket pos pkt).setProc i p') P a Q b).Sublist
        (w.chain P a Q b) := fun hnone => by
    refine chain_leave rfl rfl hm' ?_ ((ahead_sublist (q := p') rfl hahead P).filterMap _)
      (fun hmem => ⟨htx, fun q hq => ?_⟩)
    · rw [contents_proc_self]
      exact hsub
    · rw [List.mem_singleton.mp hq]
      exact hnone hmem
  by_cases hQ : i = Q ∧ d = b
  · obtain ⟨rfl, rfl⟩ := hQ
    obtain hnone | ⟨hP, after, hpath⟩ := hnext P a
    · exact hleave (fun _ => hnone)
    · refine chain_pass [pos] hpath rfl rfl ?_ ?_ (fun z hz hz' => view_of_move hm'
        (fun hne => Or.inr (Or.inr ?_)) hz hz')
      · have hv : P = i ∨ (.proc i x : Place n A) ≠ .proc P .recvFromDriver :=
          hP.imp_right (fun hne he => hne (Place.proc.inj he).2)
        rw [view_of_ne hv, view_of_ne hv, contents_proc_self]
        exact hx
      · rw [view_of_ne (Or.inr (by simp)), view_of_ne (Or.inr (by simp))]
        exact htx
      · rw [proc_setProc_of_ne _ _ hne]
        rfl
  · exact hleave (fun hmem => absurd (mem_path_txPool.mp hmem) hQ)

/-- **A packet is processed**: the first of a list that stands in the line before the pool it
is put in, or a packet that does not count there. -/
theorem Follows.process (h : w.Inv items owner) {x y : ProcPlace A} {q p'' : Process A}
    {malloc : Option ℕ} {ret : Verdict} {pkt : Packet} (hxtx : ∀ d, x ≠ .txPool d)
    (hxrx : ∀ a, x ≠ .rxPool a) (hxin : x.InLine) (hy : ¬ y.InLine)
    (hx : (w.proc i).contents x = pos :: q.contents x)
    (hother : ∀ z, z ≠ x → q.contents z = (w.proc i).contents z) (hrings : q.RingsOk)
    (hcall : processPacket malloc q (w.packet pos) = some (ret, pkt, p'))
    (hp'' : p''.pc = p'.pc ∧ ∀ z, z ≠ y → p''.contents z = p'.contents z)
    (hpc : q.pc = (w.proc i).pc)
    (hahead : ∀ p : Process A, p.pc = (w.proc i).pc →
      (∀ z : ProcPlace A, z.InLine → z ≠ x → (∀ d, z ≠ .txPool d) →
        p.contents z = (w.proc i).contents z) →
      (p.contents x).Sublist ((w.proc i).contents x) →
      p.ahead.Sublist (w.proc i).ahead ∧ ∀ q ∈ p.foreign, q ∈ (w.proc i).foreign)
    (hnext : ∀ (P : Fin n) (a d : Fin A), w.serialFrom P a pos = none
      ∨ (P = i ∨ x ≠ .recvFromDriver)
        ∧ ∃ after, path P a i d = [] ++ .proc i (.txPool d) :: .proc i x :: after) :
    Follows owner w ((w.setPacket pos pkt).setProc i (if ret ≠ .stolen then p'' else p')) := by
  obtain ⟨-, hpc', -, hcontents⟩ := processPacket_spec hrings hcall
  have hmem : pos ∈ (w.proc i).contents x := hx ▸ List.mem_cons_self
  by_cases hret : ret = .stolen
  · rw [if_pos hret, h.phys pos (h.mem_items hmem)] at hcontents
    rw [if_neg (not_not_intro hret)]
    obtain ⟨d, hd, hrest⟩ := hcontents
    rw [hother _ (hxtx d).symm] at hd
    have hx' : (w.proc i).contents x = [pos] ++ p'.contents x := by
      rw [hrest x (hxtx d), hx]
      rfl
    have hsame : ∀ z, z ≠ x → z ≠ .txPool d → p'.contents z = (w.proc i).contents z :=
      fun z hz hz' => (hrest z hz').trans (hother z hz)
    obtain ⟨hahead', hforeign⟩ := hahead p' (hpc'.trans hpc)
      (fun z _ hz hz' => hsame z hz (hz' d)) (hx' ▸ List.sublist_append_right [pos] _)
    exact .steal (hxtx d) hxrx hx' hd hsame hahead' hforeign (fun P a => hnext P a d)
  · rw [if_neg hret] at hcontents
    rw [if_pos hret]
    have hsame : ∀ z : ProcPlace A, z.InLine → p''.contents z = q.contents z := fun z hz => by
      rw [hp''.2 z (fun he => hy (he ▸ hz)), hcontents]
    have hsub : (p''.contents x).Sublist ((w.proc i).contents x) := by
      rw [hsame x hxin, hx]
      exact List.sublist_cons_self _ _
    have hrest : ∀ z : ProcPlace A, z.InLine → z ≠ x → p''.contents z = (w.proc i).contents z :=
      fun z hz hne => (hsame z hz).trans (hother z hne)
    obtain ⟨hahead', hforeign⟩ := hahead p'' (hp''.1.trans (hpc'.trans hpc))
      (fun z hz hne _ => hrest z hz hne) hsub
    have hquiet : Process.Quiet owner i (w.proc i) p'' := by
      refine ⟨fun z hz => ?_, hahead', fun q hq => Or.inl (hforeign q hq)⟩
      by_cases hzx : z = x
      · rw [hzx]
        exact hsub
      · rw [hrest z hz hzx]
    exact .of_quiet hquiet rfl rfl rfl rfl rfl

theorem Follows.processDriver (h : w.Inv items owner)
    (hst : ∀ q r, w.received q = some r → owner q = r.proc) {rest : List ℕ} {malloc : Option ℕ}
    (hpc : (w.proc i).pc = .processDriver) (hl : (w.proc i).recv_from_driver = pos :: rest)
    (hrun : w.processDriver i pos rest malloc = some t) : Follows owner w t := by
  have hrings := (h.proc i).rings
  have hmem : pos ∈ (w.proc i).contents .recvFromDriver := by
    show pos ∈ (w.proc i).recv_from_driver
    rw [hl]
    exact List.mem_cons_self
  have howner : owner pos = i := h.fits_proc (x := .recvFromDriver) hmem
  obtain ⟨⟨ret, pkt, p'⟩, hcall, rfl⟩ := Option.map_eq_some_iff.mp hrun
  refine .process h (x := .recvFromDriver) (y := .freeHead)
    (q := { w.proc i with recv_from_driver := rest }) (by simp) (by simp) trivial id hl
    (fun z hz => Process.contents_setRecvFromDriver_of_ne (w.proc i) rest hz)
    ⟨hrings.free, hrings.rx, hrings.tx⟩ hcall
    ⟨rfl, fun z hz => Process.contents_setFreeHead_of_ne _ _ hz⟩ rfl
    (fun p hp hsame _ => ⟨?_, fun q hq => ?_⟩) (fun P a d => ?_)
  · rw [Process.ahead, hp, hpc]
    exact List.nil_sublist _
  · rw [Process.foreign, hp] at hq
    rw [Process.foreign]
    rwa [show p.recv_from_dispatch = _ from hsame .recvFromDispatch trivial (by simp)
      (by simp)] at hq
  · by_cases hP : P = i
    · refine Or.inr ⟨Or.inl hP, [.proc P (.rxPool a)], ?_⟩
      rw [path, if_pos hP, hP]
      rfl
    · exact Or.inl (serialFrom_eq_none hst (fun he => hP (Fin.ext (he.symm.trans howner))))

theorem Follows.processDispatch (h : w.Inv items owner)
    (hst : ∀ q r, w.received q = some r → owner q = r.proc)
    (hforeign : ∀ q ∈ (w.proc i).foreign, owner q ≠ i) {rest : List ℕ} {malloc : Option ℕ}
    (hpc : (w.proc i).pc = .processDispatch) (hl : (w.proc i).recv_from_dispatch = pos :: rest)
    (hrun : w.processDispatch i pos rest malloc = some t) : Follows owner w t := by
  have hrings := (h.proc i).rings
  have howner : owner pos ≠ i := hforeign pos (by
    rw [Process.foreign, hpc]
    show pos ∈ (w.proc i).recv_from_dispatch
    rw [hl]
    exact List.mem_cons_self)
  obtain ⟨⟨ret, pkt, p'⟩, hcall, rfl⟩ := Option.map_eq_some_iff.mp hrun
  refine .process h (x := .recvFromDispatch) (y := .toReclaim)
    (q := { w.proc i with recv_from_dispatch := rest }) (by simp) (by simp) trivial id hl
    (fun z hz => Process.contents_setRecvFromDispatch_of_ne (w.proc i) rest hz)
    ⟨hrings.free, hrings.rx, hrings.tx⟩ hcall
    ⟨rfl, fun z hz => Process.contents_setToReclaim_of_ne _ _ hz⟩ rfl
    (fun p hp hsame hsub => ⟨?_, fun q hq => ?_⟩) (fun P a d => ?_)
  · rw [Process.ahead, Process.ahead, hp, hpc]
    show p.recv_from_driver.Sublist (w.proc i).recv_from_driver
    rw [show p.recv_from_driver = _ from hsame .recvFromDriver trivial (by simp) (by simp)]
    exact List.Sublist.refl _
  · rw [Process.foreign, hp, hpc] at hq
    rw [Process.foreign, hpc]
    exact hsub.subset hq
  · by_cases hP : P = i
    · exact Or.inl (serialFrom_eq_none hst (fun he => howner (he.trans (congrArg Fin.val hP))))
    · refine Or.inr ⟨Or.inr (by simp), [.slots i P, .pending i P, .proc P .recvFromDriver,
        .proc P (.rxPool a)], ?_⟩
      rw [path, if_neg hP]
      rfl

/-- A line begins with the pool of its transmit ring. -/
theorem path_sent (P : Fin n) (a : Fin A) (Q : Fin n) (b : Fin A) :
    ∃ after, path P a Q b = .proc Q (.txPool b) :: after := by
  unfold path
  split
  · exact ⟨_, rfl⟩
  · exact ⟨_, rfl⟩

/-- **What is put on a transmit ring is recorded** in the order of its descriptors. -/
theorem Inv.send_eq (h : w.Inv items owner) (a : Fin A) :
    ∃ (p' : Process A) (taken : List ℕ),
      Move (w.proc i).contents p'.contents (.txPool a) (.txRing a) taken
      ∧ (w.proc i).contents (.txPool a) = taken ++ p'.contents (.txPool a)
      ∧ (p'.adapter a).tx_ring.held = ((w.proc i).adapter a).tx_ring.held ++ taken
      ∧ w.send i a = { w.setProc i (p'.goto (.send (a + 1))) with
        tx_log := Function.update w.tx_log i (Function.update (w.tx_log i) a
          (w.tx_log i a ++ taken.filterMap w.received)) } := by
  obtain ⟨p', taken, hcall, -, hm, hpool, hheld⟩ := adapterSend_spec (h.proc i).rings a
  have htaken : ((w.proc i).adapter a).tx_ring.pool.list.take
      (((w.proc i).adapter a).tx_ring.pool.list.length
        - (p'.adapter a).tx_ring.pool.list.length) = taken := by
    rw [show ((w.proc i).adapter a).tx_ring.pool.list
      = taken ++ (p'.adapter a).tx_ring.pool.list from hpool, List.length_append,
      Nat.add_sub_cancel]
    exact List.take_left
  refine ⟨p', taken, hm, hpool, hheld, ?_⟩
  simp only [World.send, hcall, htaken]

theorem Follows.send (h : w.Inv items owner) {d : ℕ} (hpc : (w.proc i).pc = .send d)
    (a : Fin A) : Follows owner w (w.send i a) := by
  obtain ⟨p', taken, hm, hpool, -, hsend⟩ := h.send_eq (i := i) a
  have hproc : (w.send i a).proc = Function.update w.proc i (p'.goto (.send (a + 1))) := by
    rw [hsend]
    rfl
  have hrec : (w.send i a).received = w.received := by
    rw [hsend]
    rfl
  have hm' : Move w.contents (w.send i a).contents (.proc i (.txPool a)) (.proc i (.txRing a))
      taken := move_proc hproc (by rw [hsend]; rfl) hm
  have hlog : (w.send i a).tx_log = Function.update w.tx_log i (Function.update (w.tx_log i) a
      (w.tx_log i a ++ taken.filterMap w.received)) := by rw [hsend]
  have hahead : (p'.goto (.send (a + 1))).ahead = (w.proc i).ahead := by
    rw [Process.ahead, Process.ahead, hpc]
    exact hm.other .recvFromDriver (by simp) (by simp)
  refine .of_proc hproc (by rw [hsend]; rfl) hrec (fun d q hq => ?_)
    (fun q hq => absurd hq List.not_mem_nil) (fun P c Q b => ?_)
  · rwa [Process.contents_goto, hm.other _ (by simp) (by simp)] at hq
  have hview : ∀ z ∈ path P c Q b, z ≠ .proc i (.txPool a) →
      (w.send i a).view P Q z = w.view P Q z := fun z hz hne => by
    refine view_of_move hm' (fun _ => Or.inr (Or.inr ?_)) hne
      (fun he => inLine_of_mem_path (x := .txRing a) (he ▸ hz))
    rw [hproc]
    by_cases hP : P = i
    · rw [hP, Function.update_self]
      exact hahead
    · rw [Function.update_of_ne hP]
  have hserial : (w.send i a).serialFrom P c = w.serialFrom P c := by
    funext q
    rw [serialFrom, serialFrom, hrec]
  by_cases hQ : i = Q ∧ a = b
  · obtain ⟨rfl, rfl⟩ := hQ
    obtain ⟨after, hpath⟩ := path_sent P c i a
    have hafter : ∀ z ∈ after, (w.send i a).view P i z = w.view P i z := fun z hz => by
      have hnodup := nodup_path P c i a
      rw [hpath] at hnodup
      refine hview z (hpath ▸ List.mem_cons_of_mem _ hz) (fun he => ?_)
      exact (List.nodup_cons.mp hnodup).1 (he ▸ hz)
    have hfront : w.view P i (.proc i (.txPool a))
        = taken ++ (w.send i a).view P i (.proc i (.txPool a)) := by
      rw [view_of_ne (Or.inr (by simp)), view_of_ne (Or.inr (by simp)), contents, contents, hproc,
        Function.update_self]
      exact hpool
    -- what leaves the line is put at the end of the record
    rw [World.chain, World.chain, hlog, Function.update_self, Function.update_self, hserial,
      hpath, List.flatMap_cons, List.flatMap_cons, hfront, List.flatMap_congr hafter,
      List.filterMap_append, List.filterMap_filterMap]
    simp only [List.filterMap_append, List.append_assoc]
    exact List.Sublist.refl _
  · have hlog' : (w.send i a).tx_log Q b = w.tx_log Q b := by
      rw [hlog]
      by_cases hi : Q = i
      · subst hi
        rw [Function.update_self, Function.update_of_ne (fun hb => hQ ⟨rfl, hb.symm⟩)]
      · rw [Function.update_of_ne hi]
    have hsame : ∀ z ∈ path P c Q b, (w.send i a).view P Q z = w.view P Q z := fun z hz =>
      hview z hz (fun he => hQ (mem_path_txPool.mp (he ▸ hz)))
    rw [World.chain, World.chain, hlog', hserial, List.flatMap_congr hsame]

/-! ## Every step -/

/-- **What a line keeps.** -/
structure Ordered (owner : ℕ → ℕ) (w : World n A) : Prop where
  /-- The numbers in a line go up, and the next reception has a higher one. -/
  chain : ∀ P a Q b, (w.chain P a Q b ++ [w.count P a]).Pairwise (· < ·)
  /-- A packet is received by its owner. -/
  received : ∀ q r, w.received q = some r → owner q = r.proc
  /-- What is in the pool of a receive ring was received from it last. -/
  rxPool : ∀ i a, ∀ q ∈ w.contents (.proc i (.rxPool a)),
    ∃ serial, w.received q = some ⟨i, a, serial⟩
  /-- No process is to process a packet that was returned to it. -/
  foreign : ∀ i : Fin n, ∀ q ∈ (w.proc i).foreign, owner q ≠ i

/-- A step that receives nothing keeps the order. -/
theorem Ordered.follows (h : w.Ordered owner) (hf : Follows owner w t) : t.Ordered owner where
  chain P a Q b := by
    rw [hf.count]
    exact (h.chain P a Q b).sublist ((hf.chain P a Q b).append (List.Sublist.refl _))
  received q r hq := h.received q r (hf.received ▸ hq)
  rxPool j a q hq := by
    rw [hf.received]
    exact h.rxPool j a q (hf.rxPool j a q hq)
  foreign j q hq := (hf.foreign j q hq).elim (h.foreign j q) id

/-- **A step of a process receives, or follows.** -/
theorem Follows.run (h : w.Inv items owner) (ho : w.Ordered owner)
    (hrun : w.run i e = some t) :
    Follows owner w t ∨ ∃ a : Fin A, (w.proc i).pc = .recv a ∧ t = w.recv i a := by
  have hrings := (h.proc i).rings
  unfold World.run at hrun
  cases hpc : (w.proc i).pc with
  | allocRx a =>
    left
    simp only [hpc] at hrun
    split at hrun <;> obtain rfl := Option.some.inj hrun
    · obtain ⟨p', moved, hcall, -, hm⟩ := adapterAllocRxBuffers_spec hrings ⟨a, ‹_›⟩
      exact .stage hcall hm id id (fun _ => by rw [hpc]; rfl) (fun _ => rfl)
    · exact .goto_same (fun _ => by rw [hpc]; rfl) (fun _ => rfl)
  | recv a =>
    simp only [hpc] at hrun
    split at hrun <;> obtain rfl := Option.some.inj hrun
    · exact Or.inr ⟨⟨a, ‹_›⟩, rfl, rfl⟩
    · exact Or.inl (.goto_same (fun _ => by rw [hpc]; rfl) (fun _ => rfl))
  | received a =>
    left
    simp only [hpc] at hrun
    split at hrun <;> obtain rfl := Option.some.inj hrun
    · exact .getReceived h (ho.rxPool i) hpc _
    · exact .goto_same (fun _ => by rw [hpc]; rfl) (fun _ => rfl)
  | filter k =>
    left
    simp only [hpc] at hrun
    split at hrun <;> obtain rfl := Option.some.inj hrun
    · exact .filter hpc e.garbage
    · split
      · exact .goto (List.nil_sublist _) (fun q hq => absurd hq List.not_mem_nil)
      · exact .goto_same (fun _ => by rw [hpc]; rfl) (fun _ => rfl)
  | dispatch k =>
    left
    simp only [hpc] at hrun
    split at hrun <;> obtain rfl := Option.some.inj hrun
    · rename_i pos hpos
      exact .dispatch hpc hpos e.id
    · exact .goto (List.nil_sublist _) (fun q hq => absurd hq List.not_mem_nil)
  | flush site j =>
    left
    simp only [hpc] at hrun
    split at hrun
    · split at hrun <;> obtain rfl := Option.some.inj hrun
      · exact .goto_same (fun _ => by rw [hpc]; cases site <;> rfl) (fun _ => rfl)
      · exact .put h hpc
    · obtain rfl := Option.some.inj hrun
      exact .goto_same (fun _ => by rw [hpc]; cases site <;> rfl) (fun _ => by cases site <;> rfl)
  | lfqRecv j =>
    left
    simp only [hpc] at hrun
    split at hrun
    · split at hrun <;> obtain rfl := Option.some.inj hrun
      · exact .goto_same (fun _ => by rw [hpc]; rfl) (fun _ => rfl)
      · exact .get h ho.received hpc
    · obtain rfl := Option.some.inj hrun
      exact .goto_same (fun _ => by rw [hpc]; rfl) (fun _ => rfl)
  | dispatched k =>
    left
    simp only [hpc] at hrun
    split at hrun
    · rename_i pos hpos
      exact .dispatched h hpc hpos hrun
    · rename_i hnone
      obtain rfl := Option.some.inj hrun
      refine .goto (List.nil_sublist _) (fun q hq => Or.inl ?_)
      rw [Process.foreign, hpc]
      show q ∈ (w.proc i).recv_from_dispatch.take k
      rw [List.take_of_length_le (List.getElem?_eq_none_iff.mp hnone)]
      exact hq
  | processDriver =>
    left
    simp only [hpc] at hrun
    split at hrun
    · rename_i pos rest hl
      exact .processDriver h ho.received hpc hl hrun
    · rename_i hnil
      obtain rfl := Option.some.inj hrun
      refine .goto ?_ (fun q hq => Or.inl ?_)
      · show (w.proc i).recv_from_driver.Sublist _
        rw [hnil]
        exact List.nil_sublist _
      · rw [Process.foreign, hpc]
        exact hq
  | processDispatch =>
    left
    simp only [hpc] at hrun
    split at hrun
    · rename_i pos rest hl
      exact .processDispatch h ho.received (ho.foreign i) hpc hl hrun
    · obtain rfl := Option.some.inj hrun
      exact .goto_same (fun _ => by rw [hpc]; rfl) (fun _ => rfl)
  | reclaimTx a =>
    left
    simp only [hpc] at hrun
    split at hrun <;> obtain rfl := Option.some.inj hrun
    · obtain ⟨p', moved, hcall, -, hm⟩ := adapterReclaimTxBuffers_spec hrings ⟨a, ‹_›⟩
      exact .stage hcall hm id id (fun _ => by rw [hpc]; rfl) (fun _ => rfl)
    · split
      · exact .goto_same (fun _ => by rw [hpc]; rfl) (fun _ => rfl)
      · exact .goto_same (fun _ => by rw [hpc]; rfl) (fun _ => rfl)
  | dispatchReclaim k =>
    left
    simp only [hpc] at hrun
    split at hrun
    · rename_i pos hpos
      exact .dispatchReclaim h ho.received hpc hpos hrun
    · obtain rfl := Option.some.inj hrun
      exact .goto_same (fun _ => by rw [hpc]; rfl) (fun _ => rfl)
  | zoneReclaimFree =>
    left
    simp only [hpc] at hrun
    split at hrun <;> obtain rfl := Option.some.inj hrun
    · exact .zoneReclaimFree
    · exact .goto_same (fun _ => by rw [hpc]; rfl) (fun _ => rfl)
  | zoneReclaim =>
    left
    simp only [hpc] at hrun
    split at hrun <;> obtain rfl := Option.some.inj hrun
    · exact .zoneReclaim
    · exact .goto_same (fun _ => by rw [hpc]; rfl) (fun _ => rfl)
  | send a =>
    left
    simp only [hpc] at hrun
    split at hrun <;> obtain rfl := Option.some.inj hrun
    · exact .send h hpc _
    · exact .goto_same (fun _ => by rw [hpc]; rfl) (fun _ => rfl)
  | timerExpire =>
    left
    simp only [hpc] at hrun
    obtain rfl := Option.some.inj hrun
    exact .timerExpire hpc e.now
  | exited => exact absurd hpc (h.proc i).running

/-! ## Receiving -/

/-- **What is taken from a receive ring is numbered** in the order of its descriptors. -/
theorem Inv.recv_eq (h : w.Inv items owner) (a : Fin A) :
    ∃ (p' : Process A) (packet' : ℕ → Packet) (got : List ℕ),
      Move (w.proc i).contents p'.contents (.rxRing a) (.rxPool a) got
      ∧ p'.contents (.rxPool a) = (w.proc i).contents (.rxPool a) ++ got
      ∧ ((w.proc i).adapter a).rx_ring.held = got ++ (p'.adapter a).rx_ring.held
      ∧ w.recv i a = { w.setProc i (p'.goto (.recv (a + 1))) with
        packet := packet'
        received := stamp w.received i a (w.count i a) got
        count := Function.update w.count i
          (Function.update (w.count i) a (w.count i a + got.length)) } := by
  obtain ⟨p', packet', got, hcall, -, -, hm, hpool, hheld, -⟩ :=
    adapterRecv_spec (h.proc i).rings w.packet a
  have hgot : (p'.adapter a).rx_ring.pool.list.drop
      ((w.proc i).adapter a).rx_ring.pool.list.length = got := by
    rw [show (p'.adapter a).rx_ring.pool.list
      = ((w.proc i).adapter a).rx_ring.pool.list ++ got from hpool]
    exact List.drop_left
  refine ⟨p', packet', got, hm, hpool, hheld, ?_⟩
  simp only [World.recv, hcall, hgot]

/-- What is numbered in its order has the numbers from the first one on. -/
theorem filterMap_stamp {got : List ℕ} (hgot : got.Nodup) {f : ℕ → Option ℕ} {serial : ℕ}
    (hf : ∀ q ∈ got, f q = some (serial + got.idxOf q)) :
    got.filterMap f = List.range' serial got.length := by
  have hmap : got.filterMap f = got.map (fun q => serial + got.idxOf q) := by
    rw [← List.filterMap_eq_map]
    exact List.filterMap_congr hf
  rw [hmap]
  refine List.ext_getElem (by simp) (fun k hk hk' => ?_)
  rw [List.getElem_map, hgot.idxOf_getElem, List.getElem_range', Nat.one_mul]

/-- What the dispatcher is still to look at is in `recv_from_driver`. -/
theorem mem_contents_of_mem_view {z : Place n A} {q : ℕ} (hq : q ∈ w.view P Q z) :
    q ∈ w.contents z := by
  unfold view at hq
  split at hq
  · rename_i hz
    rw [hz.2]
    refine List.Sublist.subset ?_ hq
    show ((w.proc P).pc.ahead (w.proc P).recv_from_driver).Sublist (w.proc P).recv_from_driver
    cases (w.proc P).pc with
    | dispatch k => exact List.drop_sublist k _
    | flush site j => cases site <;> first | exact List.nil_sublist _ | exact List.Sublist.refl _
    | lfqRecv _ | dispatched _ | processDriver => exact List.nil_sublist _
    | _ => exact List.Sublist.refl _
  · exact hq

/-- **What receiving does**: packets of a ring are put in its pool and get the next numbers. -/
structure Receives (i : Fin n) (a : Fin A) (got : List ℕ) (w t : World n A) : Prop where
  /-- They move from the ring to its pool, -/
  move : Move w.contents t.contents (.proc i (.rxRing a)) (.proc i (.rxPool a)) got
  /-- at the end of it. -/
  pool : t.contents (.proc i (.rxPool a)) = w.contents (.proc i (.rxPool a)) ++ got
  /-- They get their numbers. -/
  received : t.received = stamp w.received i a (w.count i a) got
  /-- So many are counted. -/
  count_self : t.count i a = w.count i a + got.length
  /-- Other rings count none. -/
  count_other : ∀ P c, ¬ (P = i ∧ c = a) → t.count P c = w.count P c
  /-- Nothing is sent. -/
  tx_log : t.tx_log = w.tx_log
  /-- The dispatchers have the same packets before them. -/
  ahead : ∀ P, (t.proc P).ahead = (w.proc P).ahead
  /-- What was returned to a process was so before. -/
  foreign : ∀ j, ∀ q ∈ (t.proc j).foreign, q ∈ (w.proc j).foreign

theorem Inv.receives (h : w.Inv items owner) {a : Fin A} (hpc : (w.proc i).pc = .recv a) :
    ∃ got, Receives i a got w (w.recv i a) := by
  obtain ⟨p', packet', got, hm, hpool, -, hrecv⟩ := h.recv_eq (i := i) a
  have hproc : (w.recv i a).proc = Function.update w.proc i (p'.goto (.recv (a + 1))) := by
    rw [hrecv]
    rfl
  have hcount : (w.recv i a).count = Function.update w.count i
      (Function.update (w.count i) a (w.count i a + got.length)) := by rw [hrecv]
  refine ⟨got, move_proc hproc (by rw [hrecv]; rfl) hm, ?_, by rw [hrecv], ?_, fun P c hP => ?_,
    by rw [hrecv]; rfl, fun P => ?_, fun j q hq => ?_⟩
  · rw [contents, hproc, Function.update_self, Process.contents_goto]
    exact hpool
  · rw [hcount, Function.update_self, Function.update_self]
  · rw [hcount]
    by_cases hi : P = i
    · subst hi
      rw [Function.update_self, Function.update_of_ne (fun hc => hP ⟨rfl, hc⟩)]
    · rw [Function.update_of_ne hi]
  · rw [hproc]
    by_cases hP : P = i
    · rw [hP, Function.update_self, Process.ahead, Process.ahead, hpc]
      exact hm.other .recvFromDriver (by simp) (by simp)
    · rw [Function.update_of_ne hP]
  · rw [hproc] at hq
    by_cases hj : j = i
    · subst hj
      rw [Function.update_self] at hq
      exact absurd hq List.not_mem_nil
    · rwa [Function.update_of_ne hj] at hq

section Receives

variable {got : List ℕ} {q : ℕ}

/-- What is received was in the ring, so it is in no pool twice. -/
theorem Receives.nodup (hr : Receives i a got w t) (h : w.Inv items owner) : got.Nodup :=
  (hr.move.taken.nodup_iff.mp (h.exclusive.nodup _)).of_append_left

/-- What is elsewhere is not received. -/
theorem Receives.notMem (hr : Receives i a got w t) (h : w.Inv items owner)
    (hx : x ≠ .proc i (.rxRing a)) (hq : q ∈ w.contents x) : q ∉ got :=
  fun hmem => hx (h.exclusive.unique hq (hr.move.mem_moved hmem))

theorem Receives.received_of_notMem (hr : Receives i a got w t) (hq : q ∉ got) :
    t.received q = w.received q := by
  rw [hr.received, stamp, if_neg hq]

theorem Receives.received_of_mem (hr : Receives i a got w t) (hq : q ∈ got) :
    t.received q = some ⟨i, a, w.count i a + got.idxOf q⟩ := by
  rw [hr.received, stamp, if_pos hq]

variable {Q : Fin n} {b c : Fin A}

/-- The numbers on a line stay. -/
theorem Receives.line_eq (hr : Receives i a got w t) (h : w.Inv items owner) :
    ((path P c Q b).flatMap (w.view P Q)).filterMap (t.serialFrom P c)
      = ((path P c Q b).flatMap (w.view P Q)).filterMap (w.serialFrom P c) := by
  refine List.filterMap_congr (fun q hq => ?_)
  obtain ⟨z, hz, hq⟩ := List.mem_flatMap.mp hq
  have hring : z ≠ .proc i (.rxRing a) := fun he =>
    inLine_of_mem_path (x := .rxRing a) (he ▸ hz)
  rw [serialFrom, serialFrom,
    hr.received_of_notMem (hr.notMem h hring (mem_contents_of_mem_view hq))]

/-- Places on a line look the same, but for the pool of the ring. -/
theorem Receives.view_eq (hr : Receives i a got w t) {z : Place n A} (hz : z ∈ path P c Q b)
    (hne : z ≠ .proc i (.rxPool a)) : t.view P Q z = w.view P Q z :=
  view_of_move hr.move (fun _ => Or.inr (Or.inr (hr.ahead P)))
    (fun he => inLine_of_mem_path (x := .rxRing a) (he ▸ hz)) hne

/-- **The lines from the ring get the new numbers**, at their end. -/
theorem Receives.chain_self (hr : Receives i a got w t) (h : w.Inv items owner) :
    t.chain i a Q b = w.chain i a Q b ++ List.range' (w.count i a) got.length := by
  obtain ⟨before, hpath⟩ : ∃ before, path i a Q b = before ++ [.proc i (.rxPool a)] := by
    obtain ⟨before, hpath⟩ := path_received i a Q b
    exact ⟨before ++ [.proc i .recvFromDriver], by rw [hpath, List.append_assoc]; rfl⟩
  have hfront : ∀ z ∈ before, t.view i Q z = w.view i Q z := fun z hz => by
    have hnodup := nodup_path i a Q b
    rw [hpath] at hnodup
    refine hr.view_eq (hpath ▸ List.mem_append_left _ hz) (fun he => ?_)
    exact (List.nodup_append.mp hnodup).2.2 z hz _ (List.mem_singleton_self _) he
  have hlast : t.view i Q (.proc i (.rxPool a)) = w.view i Q (.proc i (.rxPool a)) ++ got := by
    rw [view_of_ne (Or.inr (by simp)), view_of_ne (Or.inr (by simp))]
    exact hr.pool
  have hflat : (path i a Q b).flatMap (t.view i Q)
      = (path i a Q b).flatMap (w.view i Q) ++ got := by
    rw [hpath, List.flatMap_append, List.flatMap_append, List.flatMap_congr hfront,
      List.flatMap_singleton, List.flatMap_singleton, hlast, List.append_assoc]
  have hstamp : got.filterMap (t.serialFrom i a) = List.range' (w.count i a) got.length :=
    filterMap_stamp (hr.nodup h) (fun q hq => by
      rw [serialFrom, hr.received_of_mem hq, Option.bind_some, Reception.serialFrom,
        if_pos ⟨rfl, rfl⟩])
  rw [World.chain, World.chain, hr.tx_log, hflat, List.filterMap_append, hr.line_eq h, hstamp,
    List.append_assoc]

/-- The other lines do not change. -/
theorem Receives.chain_other (hr : Receives i a got w t) (h : w.Inv items owner)
    (hP : ¬ (P = i ∧ c = a)) : t.chain P c Q b = w.chain P c Q b := by
  have hsame : ∀ z ∈ path P c Q b, t.view P Q z = w.view P Q z := fun z hz =>
    hr.view_eq hz (fun he => hP ((mem_path_rxPool.mp (he ▸ hz)).imp Eq.symm Eq.symm))
  rw [World.chain, World.chain, hr.tx_log, List.flatMap_congr hsame, hr.line_eq h]

end Receives

/-- **Receiving puts the next numbers at the end of its lines.** -/
theorem Ordered.recv (h : w.Inv items owner) (ho : w.Ordered owner) {a : Fin A}
    (hpc : (w.proc i).pc = .recv a) : (w.recv i a).Ordered owner := by
  obtain ⟨got, hr⟩ := h.receives hpc
  refine ⟨fun P c Q b => ?_, fun q r hq => ?_, fun j c q hq => ?_,
    fun j q hq => ho.foreign j q (hr.foreign j q hq)⟩
  · by_cases hP : P = i ∧ c = a
    · obtain ⟨rfl, rfl⟩ := hP
      obtain ⟨hup, -, hbelow⟩ := List.pairwise_append.mp (ho.chain P c Q b)
      rw [hr.chain_self h, hr.count_self, List.append_assoc, ← List.range'_1_concat]
      refine List.pairwise_append.mpr ⟨hup, List.pairwise_lt_range', fun x hx y hy => ?_⟩
      calc x < w.count P c := hbelow x hx _ (List.mem_singleton_self _)
        _ ≤ y := (List.mem_range'_1.mp hy).1
    · rw [hr.chain_other h hP, hr.count_other P c hP]
      exact ho.chain P c Q b
  · by_cases hmem : q ∈ got
    · rw [hr.received_of_mem hmem] at hq
      obtain rfl := Option.some.inj hq
      exact h.fits_proc (x := .rxRing a) (hr.move.mem_moved hmem)
    · exact ho.received q r (hr.received_of_notMem hmem ▸ hq)
  · by_cases hmem : q ∈ got
    · have hplace := hr.move.eq_of_mem_moved h.exclusive hmem hq
      obtain ⟨rfl, rfl⟩ : j = i ∧ c = a := by simpa using hplace
      exact ⟨_, hr.received_of_mem hmem⟩
    · rw [hr.received_of_notMem hmem]
      refine ho.rxPool j c q ?_
      by_cases hplace : (.proc j (.rxPool c) : Place n A) = .proc i (.rxPool a)
      · rw [hplace] at hq ⊢
        exact (hr.move.mem_given.mp hq).resolve_right hmem
      · exact hr.move.mem_of_ne hplace hq

end Steps

/-! ## Every run -/

variable {start phys size : ℕ}

/-- Nothing is numbered at first. -/
theorem Started.ordered (h : w.Started start phys size) (owner : ℕ → ℕ) : w.Ordered owner := by
  refine ⟨fun P a Q b => ?_, fun q r hq => ?_, fun i a q hq => ?_, fun i q hq => ?_⟩
  · have hnil : w.chain P a Q b = [] := by
      rw [chain, h.tx_log]
      refine List.filterMap_eq_nil_iff.mpr (fun q _ => ?_)
      rw [serialFrom, h.received]
      rfl
    rw [hnil]
    exact List.pairwise_singleton _ _
  · rw [h.received] at hq
    exact absurd hq (by simp)
  · rw [contents, (h.proc i).contents_eq_nil (by simp) (by simp)] at hq
    exact absurd hq List.not_mem_nil
  · rw [Process.foreign, (h.proc i).pc] at hq
    exact absurd hq List.not_mem_nil

/-- **The lines are in order in every reachable state.** -/
theorem ordered_of_reachable (h : (mainSystem n A start phys size).Reachable w) :
    w.Ordered (zoneOwner phys size n) := by
  refine System.invariant_of_reachable (P := fun w => w.Ordered (zoneOwner phys size n))
    (fun w hi => Started.ordered hi _) (fun w l t hr ho hst => ?_) h
  have hinv := inv_of_reachable hr
  cases l with
  | run i e =>
    obtain hf | ⟨a, hpc, rfl⟩ := Follows.run hinv ho hst
    · exact ho.follows hf
    · exact ho.recv hinv hpc
  | nicRecv i a k len frame =>
    obtain ⟨-, rfl⟩ := hst
    exact ho.follows (.nicRecv w i a k len frame)
  | nicSent i a k =>
    obtain ⟨-, rfl⟩ := hst
    exact ho.follows (.nicSent w i a k)

/-- **Packets keep their order** from a receive ring to a transmit ring. -/
structure KeepsOrder (w : World n A) : Prop where
  /-- Packets are taken from the descriptors of a receive ring in their order, and are
  numbered in it. -/
  received : ∀ i a, ∃ got, ((w.proc i).adapter a).rx_ring.held
      = got ++ (((w.recv i a).proc i).adapter a).rx_ring.held
    ∧ (w.recv i a).received = stamp w.received i a (w.count i a) got
    ∧ (w.recv i a).count i a = w.count i a + got.length
  /-- Packets are put on the descriptors of a transmit ring in the order they are
  recorded. -/
  sent : ∀ i a, ∃ taken, (((w.send i a).proc i).adapter a).tx_ring.held
      = ((w.proc i).adapter a).tx_ring.held ++ taken
    ∧ (w.send i a).tx_log i a = w.tx_log i a ++ taken.filterMap w.received
  /-- What was recorded on a transmit ring and was taken from one receive ring was taken in
  the order of the record. -/
  order : ∀ Q b, (w.tx_log Q b).Pairwise
    (fun r r' => r.proc = r'.proc → r.adapter = r'.adapter → r.serial < r'.serial)

end World

/-- **Packets are not reordered**: any number of processes, in any order, whatever is
received, wherever packets are dispatched, and whichever queues and rings are full. -/
theorem mainSystem_keepsOrder {n A start phys size : ℕ} {w : World n A}
    (h : (mainSystem n A start phys size).Reachable w) : w.KeepsOrder := by
  have hinv := World.inv_of_reachable h
  have hordered := World.ordered_of_reachable h
  refine ⟨fun i a => ?_, fun i a => ?_, fun Q b => ?_⟩
  · obtain ⟨p', packet', got, -, -, hheld, hrecv⟩ := hinv.recv_eq (i := i) a
    have hproc : (w.recv i a).proc i = p'.goto (.recv (a + 1)) := by
      rw [hrecv]
      exact World.proc_setProc w i _
    refine ⟨got, by rw [hproc]; exact hheld, by rw [hrecv], ?_⟩
    rw [hrecv]
    exact (congrFun (Function.update_self _ _ _) a).trans (Function.update_self _ _ _)
  · obtain ⟨p', taken, -, -, hheld, hsend⟩ := hinv.send_eq (i := i) a
    have hproc : (w.send i a).proc i = p'.goto (.send (a + 1)) := by
      rw [hsend]
      exact World.proc_setProc w i _
    refine ⟨taken, by rw [hproc]; exact hheld, ?_⟩
    rw [hsend]
    exact (congrFun (Function.update_self _ _ _) a).trans (Function.update_self _ _ _)
  · refine List.pairwise_iff_forall_sublist.mpr (fun {r r'} hsub hproc hadapter => ?_)
    have hup := (hordered.chain r.proc r.adapter Q b).sublist
      ((List.sublist_append_left _ _).trans (List.sublist_append_left _ _))
    have hpair := hup.sublist (hsub.filterMap (Reception.serialFrom r.proc r.adapter))
    simpa [Reception.serialFrom, hproc, hadapter] using hpair

/-- Two segments that passed through a queue are sent in the order they were received. -/
theorem mainSystem_keepsOrder_segmentsSent :
    (segmentsSent.tx_log 1 0).map (fun r => (r.proc, r.adapter, r.serial)) = [(0, 0, 0), (0, 0, 1)]
      ∧ (segmentsSent.tx_log 1 0).Pairwise
        (fun r r' => r.proc = r'.proc → r.adapter = r'.adapter → r.serial < r'.serial) :=
  ⟨by decide +kernel, (mainSystem_keepsOrder reachable_segmentsSent).order 1 0⟩
