import Ustack.Dispatch
import Ustack.Lifetime
import Ustack.Order
import Ustack.Origin

/-!
# Which process a connection lives in

Every process has connection tables of its own. What a process makes of a packet was proved one
process at a time (`processSystem`); here the processes run together, the dispatcher of each
answers as `__dispatch_ip_packet` does, and packets pass from one to another through the queues.

Two things follow. A property of the tables that survives what packets and timers do to them
(`Stable`) holds in every process of every run, so the containers agree in all of them. And a
connection is where a dispatcher sent its packet: a packet is processed in the process that took
it from the net only if the dispatcher there named that process, and in another one only if it
was put into that one's queue, unchanged until it is taken out.
-/

namespace World

open Ledger

variable {n A : ℕ} {w t : World n A} {i j k : Fin n}

/-! ## Runs in which the environment is the code's -/

/-- What `__dispatch_ip_packet` answers in a process. -/
def dispatchId (w : World n A) (i : Fin n) (pkt : Packet) : Option ℤ :=
  dispatchIpPacket (w.proc i).tables.hash_rand (w.proc i).tables.itf (dispatchModuleInit n i) pkt

/-- **The environment of a step is the code's**: a chunk `malloc` answers is a new one, and an
IP packet is dispatched to the process `__dispatch_ip_packet` answers. Where it answers no
process, no environment does. -/
def Answers (w : World n A) : MainLabel n A → Prop
  | .run i e => (w.proc i).tables.conn_mem_pool.MallocOk e.malloc
    ∧ ∀ k pos, (w.proc i).pc = .dispatch k → (w.proc i).recv_from_driver[k]? = some pos →
      packetIsIp (w.packet pos) = true → w.dispatchId i (w.packet pos) = some ((e.id : ℕ) : ℤ)
  | _ => True

end World

/-- **The main loops of `n` processes, each with its tables and its dispatcher.** A packet for
which `__dispatch_ip_packet` answers none of the processes `0..n-1` stops the process it is in:
no step of the loop follows, where the code would index outside `send_queue`. -/
def dispatchSystem (n A start phys size : ℕ) : System (World n A) (MainLabel n A) where
  init w := w.Started start phys size ∧ ∀ i, (w.proc i).tables.Started
  step w l t := w.Answers l ∧ (mainSystem n A start phys size).step w l t

theorem mainSystem_of_dispatchSystem {n A start phys size : ℕ} {w : World n A}
    (h : (dispatchSystem n A start phys size).Reachable w) :
    (mainSystem n A start phys size).Reachable w :=
  System.invariant (S := dispatchSystem n A start phys size)
    (P := (mainSystem n A start phys size).Reachable)
    (fun _ hs => .of_init hs.1) (fun _ _ _ hw hst => hw.step hst.2) h

/-! ## What a step does to the tables -/

section Processes

variable {A : ℕ} {p p' : Process A}

theorem tables_adapterAllocRxBuffers {a : Fin A} (h : adapterAllocRxBuffers p a = some p') :
    p'.tables = p.tables := by
  obtain ⟨⟨ring, pp⟩, -, rfl⟩ := Option.map_eq_some_iff.mp h
  rfl

theorem tables_adapterRecv {a : Fin A} {packet packet' : ℕ → Packet}
    (h : adapterRecv p packet a = some (p', packet')) : p'.tables = p.tables := by
  obtain ⟨⟨ring, packet''⟩, -, hp⟩ := Option.map_eq_some_iff.mp h
  obtain rfl : p.setRx a ring = p' := (Prod.ext_iff.mp hp).1
  rfl

theorem tables_adapterReclaimTxBuffers {a : Fin A} (h : adapterReclaimTxBuffers p a = some p') :
    p'.tables = p.tables := by
  obtain ⟨⟨ring, head⟩, -, rfl⟩ := Option.map_eq_some_iff.mp h
  rfl

theorem tables_adapterSend {a : Fin A} (h : adapterSend p a = some p') :
    p'.tables = p.tables := by
  obtain ⟨ring, -, rfl⟩ := Option.map_eq_some_iff.mp h
  rfl

theorem tables_driverPutPacketToSendBuffer {pkt : Packet}
    (h : driverPutPacketToSendBuffer p pkt = some p') : p'.tables = p.tables := by
  unfold driverPutPacketToSendBuffer at h
  split at h
  · obtain rfl := Option.some.inj h
    rfl
  · exact absurd h (by simp)

/-- What processing leaves in the tables is what `main_process_packets` leaves there. -/
theorem tables_processPacket {malloc : Option ℕ} {pkt out : Packet} {ret : Verdict}
    (h : processPacket malloc p pkt = some (ret, out, p')) :
    p'.tables = (mainProcessPackets malloc { p.tables with sent := [] } pkt).2.2 := by
  unfold processPacket at h
  dsimp only at h
  obtain ⟨q, hq, he⟩ := Option.map_eq_some_iff.mp h
  obtain rfl : q = p' := (Prod.ext_iff.mp (Prod.ext_iff.mp he).2).2
  have key : ∀ (l : List Packet) (a b : Process A),
      l.foldlM driverPutPacketToSendBuffer a = some b → b.tables = a.tables := by
    intro l
    induction l with
    | nil => exact fun a b hab => (Option.some.inj hab) ▸ rfl
    | cons x l ih =>
      intro a b hab
      rw [List.foldlM_cons] at hab
      obtain ⟨c, hc, hcb⟩ := Option.bind_eq_some_iff.mp hab
      rw [ih c b hcb, tables_driverPutPacketToSendBuffer hc]
  exact key _ _ _ hq

end Processes

namespace World

variable {n A : ℕ} {w t : World n A} {i j : Fin n}

/-- The packet a process is about to process. -/
def Processing (w : World n A) (i : Fin n) (pos : ℕ) : Prop :=
  ((w.proc i).pc = .processDriver ∧ pos ∈ (w.proc i).recv_from_driver)
    ∨ ((w.proc i).pc = .processDispatch ∧ pos ∈ (w.proc i).recv_from_dispatch)

/-- **What a step of a process does to its tables**: nothing, or what `timer_expire` does, or
what `main_process_packets` does with a packet it is about to process. -/
inductive TablesStep (w : World n A) (i : Fin n) (e : Env n) : Tables → Prop
  /-- Nothing. -/
  | same : TablesStep w i e (w.proc i).tables
  /-- `timer_expire`. -/
  | timer : TablesStep w i e (connectionTimerExpire (w.proc i).tables e.now)
  /-- `main_process_packets`. -/
  | packet {pos : ℕ} (h : w.Processing i pos) : TablesStep w i e
      (mainProcessPackets e.malloc { (w.proc i).tables with sent := [] } (w.packet pos)).2.2

/-- The tables of the process that took the step may differ, the others' are the same. -/
structure TablesNext (w t : World n A) (i : Fin n) (e : Env n) : Prop where
  /-- Of the process. -/
  self : w.TablesStep i e (t.proc i).tables
  /-- Of the others. -/
  other : ∀ j, j ≠ i → (t.proc j).tables = (w.proc j).tables

section TablesNext

variable {e : Env n}

theorem TablesNext.of_proc {p' : Process A} (hproc : t.proc = Function.update w.proc i p')
    (h : w.TablesStep i e p'.tables) : w.TablesNext t i e where
  self := by
    rw [hproc, Function.update_self]
    exact h
  other j hj := by rw [hproc, Function.update_of_ne hj]

/-- A step of a process that leaves its tables alone. -/
theorem TablesNext.of_same {p' : Process A} (hproc : t.proc = Function.update w.proc i p')
    (h : p'.tables = (w.proc i).tables) : w.TablesNext t i e :=
  .of_proc hproc (h ▸ .same)

theorem TablesNext.goto (pc : MainPc) : w.TablesNext (w.goto i pc) i e := .of_same rfl rfl

theorem TablesNext.stage {pc : MainPc} {q : Option (Process A)}
    (h : ∀ p', q = some p' → p'.tables = (w.proc i).tables) :
    w.TablesNext (w.stage i pc q) i e := by
  cases q with
  | none => exact .goto _
  | some p' => exact .of_same rfl (h p' rfl)

theorem TablesNext.processed {p q : Process A} {pos : ℕ}
    {ret : Verdict} {out : Packet} {p'' : Process A}
    (hcall : processPacket e.malloc p (w.packet pos) = some (ret, out, q))
    (hp : p.tables = (w.proc i).tables) (hpos : w.Processing i pos)
    (hp'' : p''.tables = q.tables) :
    w.TablesNext ((w.setPacket pos out).setProc i p'') i e := by
  refine .of_proc rfl ?_
  rw [hp'', tables_processPacket hcall, hp]
  exact .packet hpos

/-- **Every step of a process does one of these to its tables.** -/
theorem tablesNext_run (hrun : w.run i e = some t) : w.TablesNext t i e := by
  unfold World.run at hrun
  cases hpc : (w.proc i).pc with
  | allocRx a =>
    simp only [hpc] at hrun
    split at hrun <;> obtain rfl := Option.some.inj hrun
    · exact .stage (fun p' hp' => tables_adapterAllocRxBuffers hp')
    · exact .goto _
  | recv a =>
    simp only [hpc] at hrun
    split at hrun <;> obtain rfl := Option.some.inj hrun
    · unfold World.recv
      dsimp only
      split
      · exact .goto _
      · rename_i hcall
        have hsame := tables_adapterRecv hcall
        exact .of_same rfl hsame
    · exact .goto _
  | received a =>
    simp only [hpc] at hrun
    split at hrun <;> obtain rfl := Option.some.inj hrun
    · exact .of_same rfl rfl
    · exact .goto _
  | filter k =>
    simp only [hpc] at hrun
    split at hrun <;> obtain rfl := Option.some.inj hrun
    · unfold World.filter
      dsimp only
      generalize packetRecvInit e.garbage _ = res
      refine .of_same rfl ?_
      split <;> rfl
    · exact .goto _
  | dispatch k =>
    simp only [hpc] at hrun
    split at hrun <;> obtain rfl := Option.some.inj hrun
    · unfold World.dispatch
      dsimp only
      split
      · exact .of_same rfl rfl
      · exact .goto _
    · exact .goto _
  | flush site j =>
    simp only [hpc] at hrun
    split at hrun
    · split at hrun <;> obtain rfl := Option.some.inj hrun
      · exact .goto _
      · exact .of_same rfl rfl
    · obtain rfl := Option.some.inj hrun
      exact .goto _
  | lfqRecv j =>
    simp only [hpc] at hrun
    split at hrun
    · split at hrun <;> obtain rfl := Option.some.inj hrun
      · exact .goto _
      · exact .of_same rfl rfl
    · obtain rfl := Option.some.inj hrun
      exact .goto _
  | dispatched k =>
    simp only [hpc] at hrun
    split at hrun
    · unfold World.dispatched at hrun
      dsimp only at hrun
      split at hrun
      · obtain rfl := Option.some.inj hrun
        exact .goto _
      · obtain rfl := Option.some.inj hrun
        exact .goto _
      · obtain rfl := Option.some.inj hrun
        exact .of_same rfl rfl
      · obtain ⟨p', hp', rfl⟩ := Option.map_eq_some_iff.mp hrun
        have hsame := tables_driverPutPacketToSendBuffer hp'
        exact .of_same rfl hsame
      · obtain rfl := Option.some.inj hrun
        exact .goto _
    · obtain rfl := Option.some.inj hrun
      exact .goto _
  | processDriver =>
    simp only [hpc] at hrun
    split at hrun
    · rename_i pos rest hl
      obtain ⟨⟨ret, out, q⟩, hcall, rfl⟩ := Option.map_eq_some_iff.mp hrun
      refine .processed hcall rfl (Or.inl ⟨hpc, hl ▸ List.mem_cons_self⟩) ?_
      split <;> rfl
    · obtain rfl := Option.some.inj hrun
      exact .goto _
  | processDispatch =>
    simp only [hpc] at hrun
    split at hrun
    · rename_i pos rest hl
      obtain ⟨⟨ret, out, q⟩, hcall, rfl⟩ := Option.map_eq_some_iff.mp hrun
      refine .processed hcall rfl (Or.inr ⟨hpc, hl ▸ List.mem_cons_self⟩) ?_
      split <;> rfl
    · obtain rfl := Option.some.inj hrun
      exact .goto _
  | reclaimTx a =>
    simp only [hpc] at hrun
    split at hrun <;> obtain rfl := Option.some.inj hrun
    · exact .stage (fun p' hp' => tables_adapterReclaimTxBuffers hp')
    · exact .goto _
  | dispatchReclaim k =>
    simp only [hpc] at hrun
    split at hrun
    · unfold World.dispatchReclaim at hrun
      dsimp only at hrun
      split at hrun
      · split at hrun
        · obtain rfl := Option.some.inj hrun
          exact .of_same rfl rfl
        · exact absurd hrun (by simp)
      · obtain rfl := Option.some.inj hrun
        exact .goto _
    · obtain rfl := Option.some.inj hrun
      exact .goto _
  | zoneReclaimFree =>
    simp only [hpc] at hrun
    split at hrun <;> obtain rfl := Option.some.inj hrun
    · exact .of_same rfl rfl
    · exact .goto _
  | zoneReclaim =>
    simp only [hpc] at hrun
    split at hrun <;> obtain rfl := Option.some.inj hrun
    · exact .of_same rfl rfl
    · exact .goto _
  | send a =>
    simp only [hpc] at hrun
    split at hrun <;> obtain rfl := Option.some.inj hrun
    · unfold World.send
      dsimp only
      split
      · exact .goto _
      · rename_i hcall
        have hsame := tables_adapterSend hcall
        exact .of_same rfl hsame
    · exact .goto _
  | timerExpire =>
    simp only [hpc] at hrun
    obtain rfl := Option.some.inj hrun
    exact .of_proc rfl .timer
  | exited =>
    simp only [hpc] at hrun
    exact absurd hrun (by simp)

end TablesNext

/-- The NIC has no tables. -/
theorem tables_nicRecv (w : World n A) (i : Fin n) (a : Fin A) (k : ℕ) (len : UInt16)
    (frame : Memory) (j : Fin n) :
    ((w.nicRecv i a k len frame).proc j).tables = (w.proc j).tables := by
  have hproc : (w.nicRecv i a k len frame).proc = Function.update w.proc i
      ((w.proc i).setRx a (((w.proc i).adapter a).rx_ring.complete k len)) := by
    unfold World.nicRecv
    dsimp only
    split <;> rfl
  rw [hproc]
  by_cases hj : j = i
  · rw [hj, Function.update_self]
    rfl
  · rw [Function.update_of_ne hj]

theorem tables_nicSent (w : World n A) (i : Fin n) (a : Fin A) (k : ℕ) (j : Fin n) :
    ((w.nicSent i a k).proc j).tables = (w.proc j).tables := by
  by_cases hj : j = i
  · rw [hj, nicSent, proc_setProc]
    rfl
  · rw [nicSent, proc_setProc_of_ne _ _ hj]

end World

/-! ## Stable properties hold in every process -/

section Stable

variable {n A start phys size : ℕ} {P : Tables → Prop}

/-- What a step of a process does to its tables keeps a stable property of them. -/
theorem Stable.tablesStep (hP : Stable P) {w : World n A} {i : Fin n} {e : Env n} {t' : Tables}
    (hm : (w.proc i).tables.conn_mem_pool.MallocOk e.malloc) (h : P (w.proc i).tables)
    (hst : w.TablesStep i e t') : P t' := by
  cases hst with
  | same => exact h
  | timer => exact hP.timerExpire h _
  | packet hpos =>
    have hempty : P { (w.proc i).tables with sent := [] } := hP.arps _ _ h rfl
    exact hP.process hempty hm _

/-- A step of all processes keeps a stable property of the tables of each. -/
theorem Stable.dispatchStep (hP : Stable P) {w t : World n A} {l : MainLabel n A}
    (h : ∀ j, P (w.proc j).tables) (hst : (dispatchSystem n A start phys size).step w l t)
    (j : Fin n) : P (t.proc j).tables := by
  obtain ⟨hans, hst⟩ := hst
  cases l with
  | run i e =>
    have hnext := World.tablesNext_run (show w.run i e = some t from hst)
    by_cases hj : j = i
    · subst hj
      exact hP.tablesStep hans.1 (h j) hnext.self
    · rw [hnext.other j hj]
      exact h j
  | nicRecv i a k len frame =>
    obtain ⟨-, rfl⟩ := hst
    rw [World.tables_nicRecv]
    exact h j
  | nicSent i a k =>
    obtain ⟨-, rfl⟩ := hst
    rw [World.tables_nicSent]
    exact h j

/-- **A stable property that holds at the start holds in every process of every run.** -/
theorem Stable.dispatchSystem_of_reachable (hP : Stable P) (hinit : ∀ t, t.Started → P t)
    {w : World n A} (h : (dispatchSystem n A start phys size).Reachable w) (j : Fin n) :
    P (w.proc j).tables :=
  System.invariant (S := dispatchSystem n A start phys size)
    (P := fun w => ∀ j, P (w.proc j).tables) (fun _ hs j => hinit _ (hs.2 j))
    (fun _ _ _ hw hst => hP.dispatchStep hw hst) h j

end Stable

/-! ## What connections are created for -/

section Created

variable {t : Tables} {malloc : Option ℕ} {pkt : Packet}

theorem created_processForward (t : Tables) (cp : ℕ) (pkt : Packet) (is_client : Bool) :
    (processForward t cp pkt is_client).2.2.created = t.created := by
  rw [processForward_eq]
  dsimp only
  split
  · split
    · rw [created_connectionFree]
      rfl
    · rfl
  · rfl

/-- **A connection is created for the packet that is processed**, an IP packet. -/
theorem mem_created_mainProcessPackets (h : t.Ok) (hm : t.conn_mem_pool.MallocOk malloc)
    {c : Creation} (hc : c ∈ (mainProcessPackets malloc t pkt).2.2.created) :
    c ∈ t.created ∨ c.pkt = pkt ∧ packetIsIp pkt = true := by
  unfold mainProcessPackets processIpPacket at hc
  split at hc
  · rename_i hip
    have hfinds := finds_processFindConnection h hm pkt
    -- what was created is what was created when the connection was found
    have hfound : c ∈ (processFindConnection malloc t pkt).2.created := by
      generalize processFindConnection malloc t pkt = r at hc
      obtain ⟨found, t'⟩ := r
      cases found with
      | drop => exact hc
      | none => exact hc
      | connection cp is_client => rwa [← created_processForward t' cp pkt is_client]
    generalize (processFindConnection malloc t pkt).2 = t' at hfinds hfound
    generalize (processFindConnection malloc t pkt).1 = found at hfinds
    cases hfinds with
    | drop => exact Or.inl hfound
    | none _ ha =>
      rw [ha.eq] at hfound
      exact Or.inl hfound
    | notCreated _ ha hn =>
      rw [hn.eq] at hfound
      exact Or.inl (by rw [ha.eq] at hfound; exact hfound)
    | client => exact Or.inl hfound
    | remote => exact Or.inl hfound
    | self => exact Or.inl hfound
    | created _ ha hcr =>
      rw [hcr.eq] at hfound
      obtain hfound | hfound := List.mem_append.mp hfound
      · exact Or.inl (by rw [ha.eq] at hfound; exact hfound)
      · obtain rfl := List.mem_singleton.mp hfound
        exact Or.inr ⟨rfl, hip⟩
  · split at hc
    · rw [(arpHandler_spec t pkt).1] at hc
      exact Or.inl hc
    · exact Or.inl hc

end Created

/-! ## Which process a packet is for -/

/-- The part of `recv_from_driver` that the dispatcher has let stay. -/
def MainPc.kept (recv_from_driver : List ℕ) : MainPc → List ℕ
  | .dispatch k => recv_from_driver.take k
  | .flush .dispatch _ | .lfqRecv _ | .dispatched _ | .processDriver => recv_from_driver
  | _ => []

/-- What a process keeps of what it took from the net. -/
def Process.kept {A : ℕ} (p : Process A) : List ℕ := p.pc.kept p.recv_from_driver

/-- The process that packets in a place were dispatched to. -/
def Place.target {n A : ℕ} : Place n A → Option (Fin n)
  | .proc i .recvFromDispatch => some i
  | .pending r _ | .slots r _ => some r
  | _ => none

theorem MainPc.kept_subset (l : List ℕ) (pc : MainPc) : pc.kept l ⊆ l := by
  cases pc with
  | dispatch k => exact List.take_subset k l
  | flush site j => cases site <;> first | exact List.Subset.refl _ | exact List.nil_subset _
  | lfqRecv | dispatched | processDriver => exact List.Subset.refl _
  | _ => exact List.nil_subset _

namespace World

open Ledger

variable {n A : ℕ} {items : Set ℕ} {owner : ℕ → ℕ} {w₀ w t : World n A} {i j k : Fin n}

/-- **A packet is meant for a process**: if it is an IP packet, some dispatcher answers that
process for it. The dispatchers are those of `w₀`. -/
def Meant (w₀ : World n A) (k : Fin n) (pkt : Packet) : Prop :=
  packetIsIp pkt = true → ∃ r, w₀.dispatchId r pkt = some ((k : ℕ) : ℤ)

/-- A dispatcher reads no data, no length and no adapter. -/
theorem Meant.same {pkt out : Packet} (h : w₀.Meant k pkt) (hs : out.SameBuffer pkt) :
    w₀.Meant k out := by
  rw [Packet.SameBuffer] at hs
  rw [hs]
  exact h

/-- **Packets are on their way to a process they are meant for.** -/
structure Tagged (w₀ w : World n A) : Prop where
  /-- What was dispatched. -/
  queued : ∀ x k, Place.target x = some k → ∀ q ∈ w.contents x,
    (w.packet q).lfq_state = .dispatch → w₀.Meant k (w.packet q)
  /-- What stays. -/
  kept : ∀ i, ∀ q ∈ (w.proc i).kept, w₀.Meant i (w.packet q)

section Tagged

variable {p' : Process A} {pos m : ℕ} {pc : MainPc}

/-- Nothing is on its way at first. -/
theorem Started.tagged {start phys size : ℕ} (h : w.Started start phys size) :
    w₀.Tagged w := by
  refine ⟨fun x k hk q hq => ?_, fun i q hq => ?_⟩
  · cases x with
    | proc j z =>
      cases z with
      | recvFromDispatch =>
        rw [contents, (h.proc j).contents_eq_nil (by simp) (by simp)] at hq
        exact absurd hq List.not_mem_nil
      | _ => exact absurd hk (by simp [Place.target])
    | pending r c =>
      rw [(h.queues r c).1] at hq
      exact absurd hq List.not_mem_nil
    | slots r c =>
      rw [(h.queues r c).2] at hq
      exact absurd hq List.not_mem_nil
  · rw [Process.kept, (h.proc i).pc] at hq
    exact absurd hq List.not_mem_nil

/-- **A step of a process that touches no queue**: what comes after is as it was, but for packets
that it takes out of the way. -/
theorem Tagged.of_proc (ht : w₀.Tagged w) (h : w.Inv items owner)
    {s : Process A} (hproc : t.proc = Function.update w.proc i s) (hlink : t.link = w.link)
    (hpkt : ∀ q, (t.packet q).SameBuffer (w.packet q)
      ∨ ∃ z, q ∈ (w.proc i).contents z ∧ q ∉ s.recv_from_dispatch)
    (hdispatch : s.recv_from_dispatch ⊆ (w.proc i).recv_from_dispatch)
    (hkept : ∀ q ∈ s.kept, w₀.Meant i (t.packet q)) : w₀.Tagged t := by
  have hself : t.proc i = s := by rw [hproc, Function.update_self]
  have hother : ∀ j, j ≠ i → t.proc j = w.proc j := fun j hj => by
    rw [hproc, Function.update_of_ne hj]
  -- what changed is in a place of the process, so it is in no other place
  have hsame : ∀ x q, q ∈ w.contents x → (∀ z, x ≠ .proc i z) →
      (t.packet q).SameBuffer (w.packet q) := fun x q hq hx => by
    obtain hs | ⟨z, hz, -⟩ := hpkt q
    · exact hs
    · exact absurd (h.exclusive.unique hq (y := .proc i z) hz) (hx z)
  refine ⟨fun x k hk q hq hstate => ?_, fun j q hq => ?_⟩
  · have hold : q ∈ w.contents x ∧ (t.packet q).SameBuffer (w.packet q) := by
      cases x with
      | proc j z =>
        cases z with
        | recvFromDispatch =>
          by_cases hj : j = i
          · subst hj
            rw [contents, hself] at hq
            obtain hs | ⟨z, -, hno⟩ := hpkt q
            · exact ⟨hdispatch hq, hs⟩
            · exact absurd hq hno
          · rw [contents, hother j hj] at hq
            exact ⟨hq, hsame (.proc j .recvFromDispatch) q hq
              (fun z he => hj (Place.proc.inj he).1)⟩
        | _ => exact absurd hk (by simp [Place.target])
      | pending r c =>
        rw [contents, hlink] at hq
        exact ⟨hq, hsame (.pending r c) q hq (fun z => by simp)⟩
      | slots r c =>
        rw [contents, hlink] at hq
        exact ⟨hq, hsame (.slots r c) q hq (fun z => by simp)⟩
    obtain ⟨hold, hs⟩ := hold
    refine (ht.queued x k hk q hold ?_).same hs
    rw [Packet.SameBuffer] at hs
    rw [hs] at hstate
    exact hstate
  · by_cases hj : j = i
    · subst hj
      rw [hself] at hq
      exact hkept q hq
    · rw [hother j hj] at hq
      have hmem : q ∈ w.contents (.proc j .recvFromDriver) := MainPc.kept_subset _ _ hq
      exact (ht.kept j q hq).same (hsame _ q hmem (fun z he => hj (Place.proc.inj he).1))

/-- A step that changes no packet. -/
theorem Tagged.setProc (ht : w₀.Tagged w) (h : w.Inv items owner)
    {s : Process A} (hproc : t.proc = Function.update w.proc i s) (hlink : t.link = w.link)
    (hpacket : t.packet = w.packet)
    (hdispatch : s.recv_from_dispatch ⊆ (w.proc i).recv_from_dispatch)
    (hkept : s.kept ⊆ (w.proc i).kept) : w₀.Tagged t :=
  ht.of_proc h hproc hlink (fun q => Or.inl (by rw [hpacket]; rfl)) hdispatch
    (fun q hq => by rw [hpacket]; exact ht.kept i q (hkept hq))

/-- Going elsewhere. -/
theorem Tagged.goto (ht : w₀.Tagged w) (h : w.Inv items owner)
    (hkept : ∀ q ∈ pc.kept (w.proc i).recv_from_driver, w₀.Meant i (w.packet q)) :
    w₀.Tagged (w.goto i pc) :=
  ht.of_proc h (s := (w.proc i).goto pc) rfl rfl (fun _ => Or.inl rfl) (List.Subset.refl _) hkept

/-- Going where nothing more is kept. -/
theorem Tagged.goto_sub (ht : w₀.Tagged w) (h : w.Inv items owner)
    (hkept : pc.kept (w.proc i).recv_from_driver ⊆ (w.proc i).kept) :
    w₀.Tagged (w.goto i pc) := ht.goto h (fun q hq => ht.kept i q (hkept hq))

/-- Going where nothing is kept. -/
theorem Tagged.goto_nil (ht : w₀.Tagged w) (h : w.Inv items owner)
    (hpc : ∀ l, pc.kept l = []) : w₀.Tagged (w.goto i pc) :=
  ht.goto h (fun q hq => by rw [hpc] at hq; exact absurd hq List.not_mem_nil)

/-- A stage on an adapter. -/
theorem Tagged.stage (ht : w₀.Tagged w) (h : w.Inv items owner) {q : Option (Process A)}
    (hdispatch : ∀ p', q = some p' → p'.recv_from_dispatch = (w.proc i).recv_from_dispatch)
    (hpc : ∀ l, pc.kept l = []) : w₀.Tagged (w.stage i pc q) := by
  cases q with
  | none => exact ht.goto_nil h (fun _ => rfl)
  | some p' =>
    refine ht.setProc h (s := p'.goto pc) rfl rfl rfl ?_ ?_
    · show p'.recv_from_dispatch ⊆ _
      rw [hdispatch p' rfl]
      exact List.Subset.refl _
    · rw [Process.kept, show (p'.goto pc).pc = pc from rfl, hpc]
      exact List.nil_subset _

theorem Tagged.recv (ht : w₀.Tagged w) (h : w.Inv items owner) (a : Fin A) :
    w₀.Tagged (w.recv i a) := by
  obtain ⟨p', packet', moved, hcall, -, -, hm, -, -, hpacket⟩ :=
    adapterRecv_spec (h.proc i).rings w.packet a
  simp only [World.recv, hcall]
  refine ht.of_proc h (s := p'.goto (.recv (a + 1))) rfl rfl (fun q => Or.inl ?_) ?_
    (fun q hq => absurd hq List.not_mem_nil)
  · obtain ⟨len, idx, hq⟩ := hpacket q
    show (packet' q).SameBuffer _
    rw [hq]
    rfl
  · show p'.contents .recvFromDispatch ⊆ _
    rw [hm.other .recvFromDispatch (by simp) (by simp)]
    exact List.Subset.refl _

theorem Tagged.send (ht : w₀.Tagged w) (h : w.Inv items owner) (a : Fin A) :
    w₀.Tagged (w.send i a) := by
  obtain ⟨p', moved, hcall, -, hm, -⟩ := adapterSend_spec (h.proc i).rings a
  simp only [World.send, hcall]
  refine ht.setProc h (s := p'.goto (.send (a + 1))) rfl rfl rfl ?_ (List.nil_subset _)
  show p'.contents .recvFromDispatch ⊆ _
  rw [hm.other .recvFromDispatch (by simp) (by simp)]
  exact List.Subset.refl _

/-- Filtering assigns packets that no dispatcher has seen. -/
theorem Tagged.filter (ht : w₀.Tagged w) (h : w.Inv items owner)
    (hpos : (w.proc i).recv_from_driver[m]? = some pos) (garbage : UInt16 × UInt16)
    (hpc : (w.proc i).pc = .filter m) : w₀.Tagged (w.filter i m pos garbage) := by
  have hmem : pos ∈ (w.proc i).contents .recvFromDriver := List.mem_of_getElem? hpos
  unfold World.filter
  generalize packetRecvInit garbage (w.packet pos) = res
  obtain ⟨ret, pkt⟩ := res
  have hpacket : ∀ q, (((w.setPacket pos pkt).packet q).SameBuffer (w.packet q))
      ∨ ∃ z, q ∈ (w.proc i).contents z ∧ q ∉ (w.proc i).recv_from_dispatch := fun q => by
    by_cases hq : q = pos
    · subst hq
      refine Or.inr ⟨_, hmem, fun hd => ?_⟩
      have hsame := h.exclusive.unique (x := .proc i .recvFromDriver)
        (y := .proc i .recvFromDispatch) hmem hd
      exact absurd hsame (by simp)
    · rw [setPacket_of_ne _ hq]
      exact Or.inl rfl
  cases ret with
  | true =>
    exact ht.of_proc h (s := (w.proc i).goto (.filter (m + 1))) rfl rfl hpacket
      (List.Subset.refl _) (fun q hq => absurd hq List.not_mem_nil)
  | false =>
    refine ht.of_proc h (s := { w.proc i with
      recv_from_driver := (w.proc i).recv_from_driver.eraseIdx m
      free_head := (w.proc i).free_head ++ [pos] }) rfl rfl hpacket (List.Subset.refl _)
      (fun q hq => ?_)
    have hnil : MainPc.kept ((w.proc i).recv_from_driver.eraseIdx m) (w.proc i).pc = [] := by
      rw [hpc]
      rfl
    rw [Process.kept] at hq
    exact absurd (hnil ▸ hq) List.not_mem_nil

/-- What comes back to be reclaimed is taken out of the way. -/
theorem Tagged.dispatched (ht : w₀.Tagged w) (h : w.Inv items owner)
    (hpc : (w.proc i).pc = .dispatched m)
    (hpos : (w.proc i).recv_from_dispatch[m]? = some pos)
    (hrun : w.dispatched i m pos = some t) : w₀.Tagged t := by
  have hmem : pos ∈ (w.proc i).contents .recvFromDispatch := List.mem_of_getElem? hpos
  have hnodup : (w.proc i).recv_from_dispatch.Nodup :=
    h.exclusive.nodup (.proc i .recvFromDispatch)
  have hstate : (w.packet pos).lfq_state = queuedState i (owner pos) :=
    h.fits_proc (x := .recvFromDispatch) hmem
  unfold World.dispatched at hrun
  unfold queuedState at hstate
  split at hstate
  · simp only [hstate] at hrun
    obtain rfl := Option.some.inj hrun
    have hout : pos ∉ (w.proc i).recv_from_dispatch.eraseIdx m := by
      obtain ⟨hm, hget⟩ := List.getElem?_eq_some_iff.mp hpos
      rw [← hget, ← hnodup.erase_getElem m hm]
      exact hnodup.not_mem_erase
    refine ht.of_proc h (s := { w.proc i with
      recv_from_dispatch := (w.proc i).recv_from_dispatch.eraseIdx m
      free_head := (w.proc i).free_head ++ [pos] }) rfl rfl (fun q => ?_)
      (List.eraseIdx_subset) (fun q hq => ?_)
    · by_cases hq : q = pos
      · subst hq
        exact Or.inr ⟨_, hmem, hout⟩
      · refine Or.inl ?_
        show (Function.update w.packet pos _ q).SameBuffer _
        rw [Function.update_of_ne hq]
        rfl
    · have hdriver : q ∈ (w.proc i).recv_from_driver := MainPc.kept_subset _ _ hq
      have hq' : q ≠ pos := fun he => by
        have hsame := h.exclusive.unique (x := .proc i .recvFromDriver)
          (y := .proc i .recvFromDispatch) hdriver (he ▸ hmem)
        exact absurd hsame (by simp)
      show w₀.Meant i (Function.update w.packet pos _ q)
      rw [Function.update_of_ne hq']
      exact ht.kept i q hq
  · simp only [hstate] at hrun
    obtain rfl := Option.some.inj hrun
    refine ht.goto_sub h ?_
    rw [Process.kept, hpc]
    exact List.Subset.refl _

/-- What a process has outside its transmit pools is what it had, but for the packet that is
processed. -/
theorem recv_of_processPacket {p : Process A} {malloc : Option ℕ} {pkt out : Packet}
    {ret : Verdict} (hp : p.RingsOk) (hcall : processPacket malloc p pkt = some (ret, out, p')) :
    out.SameBuffer pkt ∧ p'.pc = p.pc ∧ p'.recv_from_driver = p.recv_from_driver
      ∧ p'.recv_from_dispatch = p.recv_from_dispatch := by
  obtain ⟨-, hpc, hout, hcontents⟩ := processPacket_spec hp hcall
  have hbuffer : out.SameBuffer pkt := by
    have heq : out = { pkt with data := out.data, adapter_idx := out.adapter_idx } := hout
    rw [Packet.SameBuffer, heq]
  split at hcontents
  · obtain ⟨b, -, hrest⟩ := hcontents
    exact ⟨hbuffer, hpc, hrest .recvFromDriver (by simp), hrest .recvFromDispatch (by simp)⟩
  · exact ⟨hbuffer, hpc, congrFun hcontents .recvFromDriver,
      congrFun hcontents .recvFromDispatch⟩

/-- Processing changes no field a dispatcher reads. -/
theorem Tagged.process (ht : w₀.Tagged w) (h : w.Inv items owner) {p p'' : Process A}
    {malloc : Option ℕ} {out : Packet} {ret : Verdict} (hp : p.RingsOk)
    (hcall : processPacket malloc p (w.packet pos) = some (ret, out, p'))
    (hpc : p.pc = (w.proc i).pc)
    (hdriver : p.recv_from_driver ⊆ (w.proc i).recv_from_driver)
    (hdispatch : p.recv_from_dispatch ⊆ (w.proc i).recv_from_dispatch)
    (hmain : p.pc = .processDriver ∨ p.pc = .processDispatch)
    (hp'' : p''.pc = p'.pc ∧ p''.recv_from_driver = p'.recv_from_driver
      ∧ p''.recv_from_dispatch = p'.recv_from_dispatch) :
    w₀.Tagged ((w.setPacket pos out).setProc i p'') := by
  obtain ⟨hout, hpc', hdriver', hdispatch'⟩ := recv_of_processPacket hp hcall
  have hpacket : ∀ q, ((w.setPacket pos out).packet q).SameBuffer (w.packet q) := fun q => by
    by_cases hq : q = pos
    · rw [hq, show (w.setPacket pos out).packet pos = out from Function.update_self _ _ _]
      exact hout
    · rw [setPacket_of_ne _ hq]
      rfl
  have hpc'' : p''.pc = (w.proc i).pc := hp''.1.trans (hpc'.trans hpc)
  have hrecv : p''.recv_from_driver ⊆ (w.proc i).recv_from_driver := by
    rw [hp''.2.1, hdriver']
    exact hdriver
  refine ht.of_proc h (s := p'') rfl rfl (fun q => Or.inl (hpacket q)) ?_ (fun q hq => ?_)
  · rw [hp''.2.2, hdispatch']
    exact hdispatch
  · refine (ht.kept i q ?_).same (hpacket q)
    rw [Process.kept, hpc''] at hq
    rw [Process.kept]
    rw [hpc] at hmain
    obtain hd | hd := hmain <;> rw [hd] at hq ⊢
    · exact hrecv hq
    · exact absurd hq List.not_mem_nil

theorem Tagged.processDriver (ht : w₀.Tagged w) (h : w.Inv items owner) {rest : List ℕ}
    {malloc : Option ℕ} (hpc : (w.proc i).pc = .processDriver)
    (hl : (w.proc i).recv_from_driver = pos :: rest)
    (hrun : w.processDriver i pos rest malloc = some t) : w₀.Tagged t := by
  have hrings := (h.proc i).rings
  obtain ⟨⟨ret, out, q⟩, hcall, rfl⟩ := Option.map_eq_some_iff.mp hrun
  have hrest : rest ⊆ (w.proc i).recv_from_driver := by
    rw [hl]
    exact List.subset_cons_self pos rest
  refine ht.process h (p := { w.proc i with recv_from_driver := rest })
    ⟨hrings.free, hrings.rx, hrings.tx⟩ hcall rfl hrest (List.Subset.refl _) (Or.inl hpc) ?_
  split <;> exact ⟨rfl, rfl, rfl⟩

theorem Tagged.processDispatch (ht : w₀.Tagged w) (h : w.Inv items owner) {rest : List ℕ}
    {malloc : Option ℕ} (hpc : (w.proc i).pc = .processDispatch)
    (hl : (w.proc i).recv_from_dispatch = pos :: rest)
    (hrun : w.processDispatch i pos rest malloc = some t) : w₀.Tagged t := by
  have hrings := (h.proc i).rings
  obtain ⟨⟨ret, out, q⟩, hcall, rfl⟩ := Option.map_eq_some_iff.mp hrun
  have hrest : rest ⊆ (w.proc i).recv_from_dispatch := by
    rw [hl]
    exact List.subset_cons_self pos rest
  refine ht.process h (p := { w.proc i with recv_from_dispatch := rest })
    ⟨hrings.free, hrings.rx, hrings.tx⟩ hcall rfl (List.Subset.refl _) hrest (Or.inr hpc) ?_
  split <;> exact ⟨rfl, rfl, rfl⟩

/-! ### Queues -/

/-- **A step that moves packets into or out of a queue.** -/
theorem Tagged.move {x y : Place n A} {moved : List ℕ} (ht : w₀.Tagged w)
    (h : w.Inv items owner) (hm : Move w.contents t.contents x y moved)
    (hpkt : ∀ q, t.packet q = w.packet q ∨ q ∈ moved)
    (hin : ∀ k, y.target = some k → ∀ q ∈ moved, (t.packet q).lfq_state = .dispatch →
      w₀.Meant k (t.packet q))
    (hkept : ∀ i, ∀ q ∈ (t.proc i).kept, q ∈ (w.proc i).kept ∧ q ∉ moved) :
    w₀.Tagged t where
  queued z k hk q hq hstate := by
    by_cases hmoved : q ∈ moved
    · obtain rfl := hm.eq_of_mem_moved h.exclusive hmoved hq
      exact hin k hk q hmoved hstate
    · have hold : q ∈ w.contents z := by
        by_cases hy : z = y
        · rw [hy] at hq ⊢
          exact (hm.mem_given.mp hq).resolve_right hmoved
        · exact hm.mem_of_ne hy hq
      have hsame := (hpkt q).resolve_right hmoved
      rw [hsame] at hstate ⊢
      exact ht.queued z k hk q hold hstate
  kept i q hq := by
    obtain ⟨hold, hmoved⟩ := hkept i q hq
    rw [(hpkt q).resolve_right hmoved]
    exact ht.kept i q hold

/-- **The dispatcher's answer**: a packet it lets stay is meant for its process, and one it puts
into a queue for the process the queue leads to. -/
theorem Tagged.dispatch (ht : w₀.Tagged w) (h : w.Inv items owner) {id : Fin n}
    (hpc : (w.proc i).pc = .dispatch m)
    (hpos : (w.proc i).recv_from_driver[m]? = some pos)
    (hmeant : w₀.Meant id (w.packet pos)) : w₀.Tagged (w.dispatch i m pos id) := by
  obtain ⟨hm, hget⟩ := List.getElem?_eq_some_iff.mp hpos
  unfold World.dispatch
  dsimp only
  split
  · have hother := fun z hz => Process.contents_setRecvFromDriver_of_ne (w.proc i)
      ((w.proc i).recv_from_driver.eraseIdx m) (z := z) hz
    have hmove := move_sendTo (w := w) (r := id) (x := .recvFromDriver)
      (packetSetLfqState (w.packet pos) .dispatch) hpos rfl hother
    refine ht.move h hmove (fun q => ?_) (fun k hk q hq _ => ?_) (fun j q hq => ?_)
    · by_cases hq : q = pos
      · exact Or.inr (List.mem_singleton.mpr hq)
      · exact Or.inl (setPacket_of_ne (w := w) _ hq)
    · obtain rfl := List.mem_singleton.mp hq
      obtain rfl : id = k := Option.some.inj hk
      show w₀.Meant id (Function.update w.packet q (packetSetLfqState (w.packet q) .dispatch) q)
      rw [Function.update_self]
      exact hmeant
    · have hne : ∀ q ∈ (w.proc i).recv_from_driver.take m, q ≠ pos := fun q hq he => by
        have hnodup : (w.proc i).recv_from_driver.Nodup :=
          h.exclusive.nodup (.proc i .recvFromDriver)
        have hsplit := (List.take_append_drop m (w.proc i).recv_from_driver) ▸ hnodup
        have hdrop : pos ∈ (w.proc i).recv_from_driver.drop m := by
          rw [List.drop_eq_getElem_cons hm, hget]
          exact List.mem_cons_self
        exact (List.nodup_append.mp hsplit).2.2 q hq pos hdrop he
      by_cases hj : j = i
      · subst hj
        have hkept : q ∈ (w.proc j).recv_from_driver.take m := by
          have hq' : q ∈ Process.kept (((w.setProc j { w.proc j with
            recv_from_driver := (w.proc j).recv_from_driver.eraseIdx m }).proc j)) := hq
          rw [proc_setProc, Process.kept] at hq'
          dsimp only at hq'
          rw [hpc] at hq'
          have hq'' : q ∈ ((w.proc j).recv_from_driver.eraseIdx m).take m := hq'
          rwa [List.take_eraseIdx_eq_take_of_le _ _ _ le_rfl] at hq''
        refine ⟨?_, fun he => hne q hkept (List.mem_singleton.mp he)⟩
        rw [Process.kept, hpc]
        exact hkept
      · have hq' : q ∈ Process.kept (((w.setProc i { w.proc i with
            recv_from_driver := (w.proc i).recv_from_driver.eraseIdx m }).proc j)) := hq
        rw [proc_setProc_of_ne _ _ hj] at hq'
        refine ⟨hq', fun he => ?_⟩
        have hother : q ∈ w.contents (.proc j .recvFromDriver) := MainPc.kept_subset _ _ hq'
        have hself : q ∈ w.contents (.proc i .recvFromDriver) := by
          rw [List.mem_singleton.mp he]
          exact List.mem_of_getElem? hpos
        exact hj (Place.proc.inj (h.exclusive.unique hother hself)).1
  · rename_i hstay
    refine ht.goto h (fun q hq => ?_)
    have hq' : q ∈ (w.proc i).recv_from_driver.take (m + 1) := hq
    rw [List.take_succ_eq_append_getElem hm, List.mem_append, List.mem_singleton, hget] at hq'
    obtain hq' | rfl := hq'
    · refine ht.kept i q ?_
      rw [Process.kept, hpc]
      exact hq'
    · -- it stays because it is no IP packet or because it is the process's own
      intro hip
      obtain rfl : id = i := by
        by_contra hne
        exact hstay ⟨hip, hne⟩
      exact hmeant hip

/-- What goes back to its owner is not on its way to be processed. -/
theorem Tagged.dispatchReclaim (ht : w₀.Tagged w) (h : w.Inv items owner)
    (hpc : (w.proc i).pc = .dispatchReclaim m) (hpos : (w.proc i).to_reclaim[m]? = some pos)
    (hrun : w.dispatchReclaim i m pos = some t) : w₀.Tagged t := by
  have hmem : pos ∈ w.contents (.proc i .toReclaim) := List.mem_of_getElem? hpos
  unfold World.dispatchReclaim at hrun
  dsimp only at hrun
  split at hrun
  · split at hrun
    · rename_i hlt
      obtain rfl := Option.some.inj hrun
      have hother := fun z hz => Process.contents_setToReclaim_of_ne (w.proc i)
        ((w.proc i).to_reclaim.eraseIdx m) (z := z) hz
      have hmove := move_sendTo (w := w) (r := ⟨(w.packet pos).id, hlt⟩) (x := .toReclaim)
        (packetSetLfqState (w.packet pos) .reclaim) hpos rfl hother
      refine ht.move h hmove (fun q => ?_) (fun k hk q hq hstate => ?_) (fun j q hq => ?_)
      · by_cases hq : q = pos
        · exact Or.inr (List.mem_singleton.mpr hq)
        · exact Or.inl (setPacket_of_ne (w := w) _ hq)
      · obtain rfl := List.mem_singleton.mp hq
        have hreclaim : (Function.update w.packet q (packetSetLfqState (w.packet q) .reclaim)
          q).lfq_state = .dispatch := hstate
        rw [Function.update_self] at hreclaim
        exact absurd hreclaim (by simp [packetSetLfqState])
      · have hkept : q ∈ (w.proc j).kept := by
          have hq' : q ∈ Process.kept (((w.setProc i { w.proc i with
            to_reclaim := (w.proc i).to_reclaim.eraseIdx m }).proc j)) := hq
          by_cases hj : j = i
          · subst hj
            rw [proc_setProc] at hq'
            exact hq'
          · rwa [proc_setProc_of_ne _ _ hj] at hq'
        refine ⟨hkept, fun he => ?_⟩
        have hdriver : q ∈ w.contents (.proc j .recvFromDriver) := MainPc.kept_subset _ _ hkept
        have hsame := h.exclusive.unique hdriver (List.mem_singleton.mp he ▸ hmem)
        exact absurd hsame (by simp)
    · exact absurd hrun (by simp)
  · obtain rfl := Option.some.inj hrun
    exact ht.goto_nil h (fun _ => rfl)

/-- A step of the producer. -/
theorem Tagged.put (ht : w₀.Tagged w) (h : w.Inv items owner) {r : Fin n} {site : FlushSite}
    (hpc : (w.proc i).pc = .flush site r) : w₀.Tagged (w.put i r site) := by
  obtain ⟨moved, hm, -⟩ := h.move_put (i := i) r site
  refine ht.move h hm (fun _ => Or.inl rfl) (fun k hk q hq hstate => ?_) (fun j q hq => ?_)
  · exact ht.queued (.pending r i) k hk q (hm.mem_moved hq) hstate
  · have hkept : q ∈ (w.proc j).kept := by
      by_cases hj : j = i
      · subst hj
        have hq' : q ∈ ((((w.setLink r j (w.link r j).putStep).goto j _)).proc j).kept := hq
        rw [World.goto, proc_setProc, Process.kept] at hq'
        rw [Process.kept, hpc]
        cases hput : (w.link r j).putStep.put <;> rw [hput] at hq' <;> cases site <;>
          first | exact hq' | exact absurd hq' List.not_mem_nil
      · have hq' : q ∈ ((((w.setLink r i (w.link r i).putStep).goto i _)).proc j).kept := hq
        rw [World.goto, proc_setProc_of_ne _ _ hj] at hq'
        exact hq'
    refine ⟨hkept, fun he => ?_⟩
    have hdriver : q ∈ w.contents (.proc j .recvFromDriver) := MainPc.kept_subset _ _ hkept
    exact absurd (h.exclusive.unique hdriver (hm.mem_moved he)) (by simp)

/-- A step of the consumer. -/
theorem Tagged.get (ht : w₀.Tagged w) (h : w.Inv items owner) {c : Fin n}
    (hpc : (w.proc i).pc = .lfqRecv c) : w₀.Tagged (w.get i c) := by
  obtain ⟨moved, hm, -⟩ := h.move_get (i := i) c
  refine ht.move h hm (fun _ => Or.inl rfl) (fun k hk q hq hstate => ?_) (fun j q hq => ?_)
  · exact ht.queued (.slots i c) k hk q (hm.mem_moved hq) hstate
  · have hkept : q ∈ (w.proc j).kept := by
      unfold World.get at hq
      dsimp only at hq
      by_cases hj : j = i
      · subst hj
        rw [proc_setProc, Process.kept] at hq
        rw [Process.kept, hpc]
        cases hget : (w.link j c).getStep.get <;> rw [hget] at hq <;>
          first | exact hq | exact absurd hq List.not_mem_nil
      · rw [proc_setProc_of_ne _ _ hj] at hq
        exact hq
    refine ⟨hkept, fun he => ?_⟩
    have hdriver : q ∈ w.contents (.proc j .recvFromDriver) := MainPc.kept_subset _ _ hkept
    exact absurd (h.exclusive.unique hdriver (hm.mem_moved he)) (by simp)

/-! ### Every step -/

/-- **A step of a process keeps packets on their way to where they are meant for**, if the
dispatcher answers as it should. -/
theorem Tagged.run (ht : w₀.Tagged w) (h : w.Inv items owner) {e : Env n}
    (hmeant : ∀ m pos, (w.proc i).pc = .dispatch m → (w.proc i).recv_from_driver[m]? = some pos →
      w₀.Meant e.id (w.packet pos)) (hrun : w.run i e = some t) : w₀.Tagged t := by
  have hkept : ∀ pc', (w.proc i).pc = pc' → (w.proc i).kept = pc'.kept (w.proc i).recv_from_driver :=
    fun pc' hpc => by rw [Process.kept, hpc]
  unfold World.run at hrun
  cases hpc : (w.proc i).pc with
  | allocRx a =>
    simp only [hpc] at hrun
    split at hrun <;> obtain rfl := Option.some.inj hrun
    · rename_i hlt
      obtain ⟨p', moved, hcall, -, hm⟩ := adapterAllocRxBuffers_spec (h.proc i).rings ⟨a, hlt⟩
      refine ht.stage h (fun q hq => ?_) (fun _ => rfl)
      obtain rfl := Option.some.inj (hcall.symm.trans hq)
      exact hm.other .recvFromDispatch (by simp) (by simp)
    · exact ht.goto_nil h (fun _ => rfl)
  | recv a =>
    simp only [hpc] at hrun
    split at hrun <;> obtain rfl := Option.some.inj hrun
    · exact ht.recv h _
    · exact ht.goto_nil h (fun _ => rfl)
  | received a =>
    simp only [hpc] at hrun
    split at hrun <;> obtain rfl := Option.some.inj hrun
    · rename_i hlt
      obtain ⟨-, hm, -⟩ := driverGetReceivedPackets_spec (h.proc i).rings ⟨a, hlt⟩
      refine ht.setProc h rfl rfl rfl ?_ (List.nil_subset _)
      show (driverGetReceivedPackets (w.proc i) ⟨a, hlt⟩).contents .recvFromDispatch ⊆ _
      rw [hm.other .recvFromDispatch (by simp) (by simp)]
      exact List.Subset.refl _
    · exact ht.goto_nil h (fun _ => rfl)
  | filter m =>
    simp only [hpc] at hrun
    split at hrun <;> obtain rfl := Option.some.inj hrun
    · rename_i pos hpos
      exact ht.filter h hpos e.garbage hpc
    · refine ht.goto h (fun q hq => ?_)
      split at hq
      · rename_i hnil
        rw [hnil] at hq
        exact absurd hq List.not_mem_nil
      · exact absurd hq List.not_mem_nil
  | dispatch m =>
    simp only [hpc] at hrun
    split at hrun <;> obtain rfl := Option.some.inj hrun
    · rename_i pos hpos
      exact ht.dispatch h hpc hpos (hmeant m pos hpc hpos)
    · rename_i hnone
      refine ht.goto_sub h ?_
      rw [hkept _ hpc]
      show (w.proc i).recv_from_driver ⊆ (w.proc i).recv_from_driver.take m
      rw [List.take_of_length_le (List.getElem?_eq_none_iff.mp hnone)]
      exact List.Subset.refl _
  | flush site j =>
    simp only [hpc] at hrun
    split at hrun
    · split at hrun <;> obtain rfl := Option.some.inj hrun
      · refine ht.goto_sub h ?_
        rw [hkept _ hpc]
        cases site <;> exact List.Subset.refl _
      · exact ht.put h hpc
    · obtain rfl := Option.some.inj hrun
      refine ht.goto_sub h ?_
      rw [hkept _ hpc]
      cases site <;> exact List.Subset.refl _
  | lfqRecv j =>
    simp only [hpc] at hrun
    split at hrun
    · split at hrun <;> obtain rfl := Option.some.inj hrun
      · refine ht.goto_sub h ?_
        rw [hkept _ hpc]
        exact List.Subset.refl _
      · rename_i hlt _
        exact ht.get h (c := ⟨j, hlt⟩) hpc
    · obtain rfl := Option.some.inj hrun
      refine ht.goto_sub h ?_
      rw [hkept _ hpc]
      exact List.Subset.refl _
  | dispatched m =>
    simp only [hpc] at hrun
    split at hrun
    · rename_i pos hpos
      exact ht.dispatched h hpc hpos hrun
    · obtain rfl := Option.some.inj hrun
      refine ht.goto_sub h ?_
      rw [hkept _ hpc]
      exact List.Subset.refl _
  | processDriver =>
    simp only [hpc] at hrun
    split at hrun
    · rename_i pos rest hl
      exact ht.processDriver h hpc hl hrun
    · obtain rfl := Option.some.inj hrun
      exact ht.goto_nil h (fun _ => rfl)
  | processDispatch =>
    simp only [hpc] at hrun
    split at hrun
    · rename_i pos rest hl
      exact ht.processDispatch h hpc hl hrun
    · obtain rfl := Option.some.inj hrun
      exact ht.goto_nil h (fun _ => rfl)
  | reclaimTx a =>
    simp only [hpc] at hrun
    split at hrun <;> obtain rfl := Option.some.inj hrun
    · rename_i hlt
      obtain ⟨p', moved, hcall, -, hm⟩ := adapterReclaimTxBuffers_spec (h.proc i).rings ⟨a, hlt⟩
      refine ht.stage h (fun q hq => ?_) (fun _ => rfl)
      obtain rfl := Option.some.inj (hcall.symm.trans hq)
      exact hm.other .recvFromDispatch (by simp) (by simp)
    · refine ht.goto_nil h (fun l => ?_)
      split <;> rfl
  | dispatchReclaim m =>
    simp only [hpc] at hrun
    split at hrun
    · rename_i pos hpos
      exact ht.dispatchReclaim h hpc hpos hrun
    · obtain rfl := Option.some.inj hrun
      exact ht.goto_nil h (fun _ => rfl)
  | zoneReclaimFree =>
    simp only [hpc] at hrun
    split at hrun <;> obtain rfl := Option.some.inj hrun
    · refine ht.setProc h rfl rfl rfl (List.Subset.refl _) ?_
      rw [Process.kept, Process.kept]
      exact List.Subset.refl _
    · exact ht.goto_nil h (fun _ => rfl)
  | zoneReclaim =>
    simp only [hpc] at hrun
    split at hrun <;> obtain rfl := Option.some.inj hrun
    · refine ht.setProc h rfl rfl rfl (List.Subset.refl _) ?_
      rw [Process.kept, Process.kept]
      exact List.Subset.refl _
    · exact ht.goto_nil h (fun _ => rfl)
  | send a =>
    simp only [hpc] at hrun
    split at hrun <;> obtain rfl := Option.some.inj hrun
    · exact ht.send h _
    · exact ht.goto_nil h (fun _ => rfl)
  | timerExpire =>
    simp only [hpc] at hrun
    obtain rfl := Option.some.inj hrun
    exact ht.setProc h rfl rfl rfl (List.Subset.refl _) (List.nil_subset _)
  | exited => exact absurd hpc (h.proc i).running

theorem Tagged.nicRecv (ht : w₀.Tagged w) (h : w.Inv items owner) (a : Fin A) (k : ℕ)
    (len : UInt16) (frame : Memory) : w₀.Tagged (w.nicRecv i a k len frame) := by
  have hproc : (w.nicRecv i a k len frame).proc = Function.update w.proc i
      ((w.proc i).setRx a (((w.proc i).adapter a).rx_ring.complete k len)) := by
    unfold World.nicRecv
    dsimp only
    split <;> rfl
  have hlink : (w.nicRecv i a k len frame).link = w.link := by
    unfold World.nicRecv
    dsimp only
    split <;> rfl
  have hpacket : ∀ q, ((w.nicRecv i a k len frame).packet q).SameBuffer (w.packet q) := fun q => by
    unfold World.nicRecv
    dsimp only
    split
    · rfl
    · rename_i pos _
      show (Function.update w.packet pos ((w.packet pos).setData frame) q).SameBuffer _
      by_cases hq : q = pos
      · rw [hq, Function.update_self]
        rfl
      · rw [Function.update_of_ne hq]
        rfl
  refine ht.of_proc h hproc hlink (fun q => Or.inl (hpacket q)) (List.Subset.refl _)
    (fun q hq => (ht.kept i q hq).same (hpacket q))

theorem Tagged.nicSent (ht : w₀.Tagged w) (h : w.Inv items owner) (a : Fin A) (k : ℕ) :
    w₀.Tagged (w.nicSent i a k) :=
  ht.setProc h rfl rfl rfl (List.Subset.refl _) (List.Subset.refl _)

end Tagged

end World

/-! ## Every run -/

/-- A dispatcher reads no ports and no order of addresses. -/
theorem dispatchIpPacket_keeps {itf itf' : Interface} (h : itf.Keeps itf') (hashRand : UInt32)
    (disp : Dispatch) (pkt : Packet) :
    dispatchIpPacket hashRand itf' disp pkt = dispatchIpPacket hashRand itf disp pkt := by
  unfold dispatchIpPacket ngInterfaceLookupVsip ngInterfaceLookupSelfip
  simp only [h.lookup]

/-- The seed and the addresses a dispatcher reads stay what they are. -/
theorem Tables.stable_configured (t₀ : Tables) :
    Stable (fun t => t.Ok ∧ t.hash_rand = t₀.hash_rand ∧ t₀.itf.Keeps t.itf) where
  ok _ h := h.1
  clock _ _ h htable htotal hwheel := ⟨h.1.of_clock htable htotal hwheel, h.2⟩
  assigns t t' h ha := by
    refine ⟨h.1.assigns ha, ?_⟩
    rw [ha.eq]
    exact h.2
  arps t t' h ha := by
    refine ⟨h.1.arps ha, ?_⟩
    rw [ha]
    exact h.2
  notCreated t t' h hn := by
    refine ⟨h.1.notCreated hn, ?_, h.2.2.trans hn.itf⟩
    rw [hn.eq]
    exact h.2.1
  created t pkt vs cp t' h _ hc := by
    refine ⟨h.1.created hc, ?_, h.2.2.trans hc.itf⟩
    rw [hc.eq]
    exact h.2.1
  free t cp h hcp := by
    refine ⟨h.1.free hcp, ?_, h.2.2.trans (keeps_connectionFree t cp)⟩
    rw [connectionFree_eq]
    exact h.2.1

namespace World

variable {n A start phys size : ℕ} {w₀ w t : World n A}

/-- **What holds in a run that started in `w₀`.** -/
structure OnTheWay (start phys size : ℕ) (w₀ w : World n A) : Prop where
  /-- The state is a reachable one. -/
  reachable : (mainSystem n A start phys size).Reachable w
  /-- The processes have the seeds and the addresses they started with. -/
  tables : ∀ j, (w.proc j).tables.Ok ∧ (w.proc j).tables.hash_rand = (w₀.proc j).tables.hash_rand
    ∧ (w₀.proc j).tables.itf.Keeps (w.proc j).tables.itf
  /-- Packets are on their way to a process they are meant for. -/
  tagged : w₀.Tagged w
  /-- Connections were created for packets meant for the process. -/
  meant : ∀ k, ∀ c ∈ (w.proc k).tables.created, packetIsIp c.pkt = true ∧ w₀.Meant k c.pkt

/-- The dispatchers answer what they answered at the start. -/
theorem OnTheWay.dispatchId_eq (h : OnTheWay start phys size w₀ w) (i : Fin n) (pkt : Packet) :
    w.dispatchId i pkt = w₀.dispatchId i pkt := by
  obtain ⟨-, hrand, hkeeps⟩ := h.tables i
  rw [dispatchId, hrand, dispatchIpPacket_keeps hkeeps, dispatchId]

/-- **A process processes packets meant for it.** -/
theorem OnTheWay.processing (h : OnTheWay start phys size w₀ w) {i : Fin n} {pos : ℕ}
    (hpos : w.Processing i pos) : w₀.Meant i (w.packet pos) := by
  have hinv := inv_of_reachable h.reachable
  obtain ⟨hpc, hmem⟩ | ⟨hpc, hmem⟩ := hpos
  · refine h.tagged.kept i pos ?_
    rw [Process.kept, hpc]
    exact hmem
  · refine h.tagged.queued (.proc i .recvFromDispatch) i rfl pos hmem ?_
    -- what came back to be reclaimed was taken out before
    have hforeign : zoneOwner phys size n pos ≠ i := by
      refine (ordered_of_reachable h.reachable).foreign i pos ?_
      rw [Process.foreign, hpc]
      exact hmem
    have hfits := hinv.fits_proc (x := .recvFromDispatch) hmem
    have hstate : (w.packet pos).lfq_state = queuedState i (zoneOwner phys size n pos) := hfits
    rw [hstate, queuedState, if_neg hforeign]

/-- What is created in a step is created for a packet meant for the process. -/
theorem OnTheWay.created (h : OnTheWay start phys size w₀ w) {i : Fin n} {e : Env n}
    (hm : (w.proc i).tables.conn_mem_pool.MallocOk e.malloc) (hrun : w.run i e = some t)
    (k : Fin n) {c : Creation} (hc : c ∈ (t.proc k).tables.created) :
    packetIsIp c.pkt = true ∧ w₀.Meant k c.pkt := by
  have hnext := tablesNext_run hrun
  by_cases hk : k = i
  · subst hk
    have hself := hnext.self
    generalize (t.proc k).tables = t' at hself hc
    cases hself with
    | same => exact h.meant k c hc
    | timer =>
      rw [created_connectionTimerExpire (h.tables k).1] at hc
      exact h.meant k c hc
    | packet hpos =>
      have hok : Tables.Ok { (w.proc k).tables with sent := [] } :=
        stable_ok.arps _ _ (h.tables k).1 rfl
      obtain hold | ⟨hpkt, hip⟩ := mem_created_mainProcessPackets hok hm hc
      · exact h.meant k c hold
      · rw [hpkt]
        exact ⟨hip, h.processing hpos⟩
  · rw [hnext.other k hk] at hc
    exact h.meant k c hc

/-- A dispatcher's answer is for a process it is meant for. -/
theorem OnTheWay.answers (h : OnTheWay start phys size w₀ w) {i : Fin n} {e : Env n}
    (hans : w.Answers (.run i e)) {m pos : ℕ} (hpc : (w.proc i).pc = .dispatch m)
    (hpos : (w.proc i).recv_from_driver[m]? = some pos) : w₀.Meant e.id (w.packet pos) :=
  fun hip => ⟨i, (h.dispatchId_eq i _).symm.trans (hans.2 m pos hpc hpos hip)⟩

/-- **Every step keeps all of it.** -/
theorem OnTheWay.step (h : OnTheWay start phys size w₀ w) {l : MainLabel n A}
    (hst : (dispatchSystem n A start phys size).step w l t) : OnTheWay start phys size w₀ t := by
  have hinv := inv_of_reachable h.reachable
  have htables : ∀ j, (t.proc j).tables.Ok
      ∧ (t.proc j).tables.hash_rand = (w₀.proc j).tables.hash_rand
      ∧ (w₀.proc j).tables.itf.Keeps (t.proc j).tables.itf := by
    obtain ⟨hans, hst⟩ := hst
    cases l with
    | run i e =>
      have hnext := tablesNext_run (show w.run i e = some t from hst)
      intro j
      have hP := Tables.stable_configured (w₀.proc j).tables
      by_cases hj : j = i
      · subst hj
        exact hP.tablesStep hans.1 (h.tables j) hnext.self
      · rw [hnext.other j hj]
        exact h.tables j
    | nicRecv i a k len frame =>
      obtain ⟨-, rfl⟩ := hst
      intro j
      rw [tables_nicRecv]
      exact h.tables j
    | nicSent i a k =>
      obtain ⟨-, rfl⟩ := hst
      intro j
      rw [tables_nicSent]
      exact h.tables j
  refine ⟨h.reachable.step hst.2, htables, ?_, fun k c hc => ?_⟩
  · obtain ⟨hans, hst⟩ := hst
    cases l with
    | run i e => exact h.tagged.run hinv (fun m pos hpc hpos => h.answers hans hpc hpos) hst
    | nicRecv i a k len frame =>
      obtain ⟨-, rfl⟩ := hst
      exact h.tagged.nicRecv hinv a k len frame
    | nicSent i a k =>
      obtain ⟨-, rfl⟩ := hst
      exact h.tagged.nicSent hinv a k
  · obtain ⟨hans, hst⟩ := hst
    cases l with
    | run i e => exact h.created hans.1 hst k hc
    | nicRecv i a m len frame =>
      obtain ⟨-, rfl⟩ := hst
      rw [tables_nicRecv] at hc
      exact h.meant k c hc
    | nicSent i a m =>
      obtain ⟨-, rfl⟩ := hst
      rw [tables_nicSent] at hc
      exact h.meant k c hc

end World

/-! ## Every process of every run -/

namespace World

variable {n A : ℕ}

/-- **The containers of every process agree.** -/
structure ContainersAgree (w : World n A) (k : Fin n) : Prop where
  /-- No connection is twice in a container. -/
  nodup : (w.proc k).tables.live.Nodup ∧ (w.proc k).tables.timed.Nodup
    ∧ (w.proc k).tables.liveSelf.Nodup ∧ (w.proc k).tables.conn_mem_pool.outstanding.Nodup
  /-- The connections in the client hash table, those in the wheel and the structures handed
  out are the same, and those in the self hash table the full-NAT ones among them. -/
  same : ∀ cp, (cp ∈ (w.proc k).tables.live ↔ cp ∈ (w.proc k).tables.timed)
    ∧ (cp ∈ (w.proc k).tables.live ↔ cp ∈ (w.proc k).tables.conn_mem_pool.outstanding)
    ∧ (cp ∈ (w.proc k).tables.liveSelf ↔ cp ∈ (w.proc k).tables.live
      ∧ connectionIsFullnat ((w.proc k).tables.conn cp) = true)
  /-- Only live connections were freed. -/
  freed : ∀ e ∈ (w.proc k).tables.freed, e.2 = true
  /-- Every live connection was created for a packet to its virtual server, of its client, and
  with a server of the pool of that virtual server. -/
  recorded : ∀ cp ∈ (w.proc k).tables.live, ∃ c, (w.proc k).tables.Recorded cp c

/-- **Connections are where the dispatchers sent their packets.** -/
structure Owned (w : World n A) : Prop where
  /-- The packet a connection was created for was dispatched to its process. -/
  meant : ∀ k, ∀ c ∈ (w.proc k).tables.created, ∃ p, w.dispatchId p c.pkt = some ((k : ℕ) : ℤ)
  /-- **A flow has its connections in one process** if the dispatchers agree on it. -/
  one : ∀ k k' c c', c ∈ (w.proc k).tables.created → c' ∈ (w.proc k').tables.created →
    c.pkt.saddr.ip = c'.pkt.saddr.ip → c.pkt.daddr = c'.pkt.daddr →
    (∀ p q, w.dispatchId p c.pkt = w.dispatchId q c.pkt) → k = k'

/-- A dispatcher reads the addresses and the destination port. -/
theorem dispatchId_congr (w : World n A) (i : Fin n) {pkt pkt' : Packet}
    (hs : pkt.saddr.ip = pkt'.saddr.ip) (hd : pkt.daddr = pkt'.daddr) :
    w.dispatchId i pkt = w.dispatchId i pkt' := by
  unfold dispatchId dispatchIpPacket
  rw [hs, hd]

end World

/-! ## The small network -/

/-- The environment of a step answers what the dispatcher answers. -/
def World.answered {n A : ℕ} (w : World n A) (i : Fin n) (e : Env n) : Bool :=
  match (w.proc i).pc with
  | .dispatch k =>
    match (w.proc i).recv_from_driver[k]? with
    | some pos => !packetIsIp (w.packet pos)
      || w.dispatchId i (w.packet pos) == some ((e.id : ℕ) : ℤ)
    | none => true
  | _ => true

theorem World.answers_of_answered {n A : ℕ} {w : World n A} {i : Fin n} {e : Env n}
    (hm : (w.proc i).tables.conn_mem_pool.MallocOk e.malloc) (h : w.answered i e = true) :
    w.Answers (.run i e) := by
  refine ⟨hm, fun k pos hpc hpos hip => ?_⟩
  simp only [answered, hpc, hpos, hip] at h
  exact eq_of_beq h

/-- Steps without new memory are steps of the code if the dispatcher answers them. -/
theorem World.dispatched_runSteps {n A start phys size : ℕ} {w : World n A}
    (h : (dispatchSystem n A start phys size).Reachable w) (i : Fin n) (e : Env n)
    (hm : e.malloc = none) (k : ℕ) (hans : ∀ m < k, (w.runSteps i e m).answered i e = true) :
    (dispatchSystem n A start phys size).Reachable (w.runSteps i e k) := by
  induction k with
  | zero => exact h
  | succ k ih =>
    have hk := ih (fun m hlt => hans m (Nat.lt_succ_of_lt hlt))
    rw [runSteps]
    cases hrun : (w.runSteps i e k).run i e with
    | none => exact hk
    | some t =>
      have hmalloc : ((w.runSteps i e k).proc i).tables.conn_mem_pool.MallocOk e.malloc :=
        fun start hs => absurd (hm ▸ hs) (by simp)
      exact hk.step ⟨answers_of_answered hmalloc (hans k (Nat.lt_succ_self k)),
        show (mainSystem n A start phys size).step _ (.run i e) t from hrun⟩

/-- What `toSecond` answers, and no memory. -/
def noMemory : Env 2 := { toSecond with malloc := none }

/-- The first process has taken two segments of one client from the net. -/
def segmentsTaken : World 2 1 :=
  let frame := (tcpPacket 3 1 [4, 133] [0, 80] 16).data
  let first : Fin 2 := ⟨0, Nat.two_pos⟩
  let eth : Fin 1 := ⟨0, Nat.one_pos⟩
  ((twoProcesses.runSteps first noMemory 2).nicRecv first eth 0 60 frame).nicRecv
    first eth 1 60 frame

/-- It has put them into the queue to the second process, which is about to process them. -/
def segmentsQueued : World 2 1 :=
  (segmentsTaken.runSteps ⟨0, Nat.two_pos⟩ noMemory 18).runSteps toSecond.id noMemory 19

/-- The second process has processed the first of them. -/
def segmentProcessed : World 2 1 := segmentsQueued.runSteps toSecond.id toSecond 1

theorem dispatched_segmentProcessed :
    (dispatchSystem 2 1 4096 4096 8192).Reachable segmentProcessed := by
  have hstarted : (dispatchSystem 2 1 4096 4096 8192).init twoProcesses :=
    ⟨started_twoProcesses, fun _ => started_twoVservers 1024 1027 0⟩
  have hfilled := World.dispatched_runSteps (.of_init hstarted) 0 noMemory rfl 2
    (by decide +kernel)
  have hfirst := hfilled.step (show (dispatchSystem 2 1 4096 4096 8192).step _
    (.nicRecv 0 0 0 60 (tcpPacket 3 1 [4, 133] [0, 80] 16).data) _ from
      ⟨trivial, by decide +kernel, rfl⟩)
  have htaken : (dispatchSystem 2 1 4096 4096 8192).Reachable segmentsTaken :=
    hfirst.step (show (dispatchSystem 2 1 4096 4096 8192).step _
      (.nicRecv 0 0 1 60 (tcpPacket 3 1 [4, 133] [0, 80] 16).data) _ from
        ⟨trivial, by decide +kernel, rfl⟩)
  have hqueued : (dispatchSystem 2 1 4096 4096 8192).Reachable segmentsQueued :=
    World.dispatched_runSteps (World.dispatched_runSteps htaken 0 noMemory rfl 18
      (by decide +kernel)) 1 noMemory rfl 19 (by decide +kernel)
  have hnone : (segmentsQueued.proc 1).tables.conn_mem_pool.chunks = [] := by decide +kernel
  refine hqueued.step (l := .run 1 toSecond) ⟨World.answers_of_answered (fun _ _ c hc => ?_)
    (by decide +kernel), ?_⟩
  · rw [hnone] at hc
    exact absurd hc List.not_mem_nil
  · have hsome : (segmentsQueued.run 1 toSecond).isSome = true := by decide +kernel
    obtain ⟨t, ht⟩ := Option.isSome_iff_exists.mp hsome
    show segmentsQueued.run 1 toSecond = some (segmentsQueued.runSteps 1 toSecond 1)
    rw [World.runSteps, World.runSteps, ht, Option.getD_some]

/-! ## The results -/

/-- **The containers agree in every process of every run** of the main loops together: whatever
is received by whichever process, wherever it is dispatched, whenever the clocks are read. -/
theorem dispatchSystem_containers {n A start phys size : ℕ} {w : World n A}
    (h : (dispatchSystem n A start phys size).Reachable w) (k : Fin n) :
    w.ContainersAgree k := by
  have horigin : (w.proc k).tables.Origin := by
    refine Tables.stable_origin.dispatchSystem_of_reachable (fun t hs => ⟨hs.ok, fun cp hcp => ?_⟩)
      h k
    obtain ⟨t₀, ht₀⟩ := hs.conn
    rw [ht₀, Tables.live, connectionModuleInit, linked_nil] at hcp
    exact absurd hcp List.not_mem_nil
  have hok := horigin.ok
  exact ⟨⟨hok.nodup, hok.timer.nodup_iff.mpr hok.mem.nodup_outstanding,
    hok.self.nodup_iff.mpr (hok.mem.nodup_outstanding.filter _), hok.mem.nodup_outstanding⟩,
    fun cp => ⟨hok.mem_timed.symm, hok.mem_live, hok.mem_liveSelf⟩, hok.freed, horigin.recorded⟩

/-- A connection is in the containers of the second process. -/
theorem dispatchSystem_containers_segmentProcessed :
    0x1fff80 ∈ (segmentProcessed.proc 1).tables.live
      ∧ 0x1fff80 ∈ (segmentProcessed.proc 1).tables.timed := by
  have hlive : 0x1fff80 ∈ (segmentProcessed.proc 1).tables.live := by decide +kernel
  exact ⟨hlive, ((dispatchSystem_containers dispatched_segmentProcessed 1).same _).1.mp hlive⟩

/-- **Every connection is in a process its packet was dispatched to**, in every run of the main
loops together. -/
theorem dispatchSystem_owned {n A start phys size : ℕ} {w : World n A}
    (h : (dispatchSystem n A start phys size).Reachable w) : w.Owned := by
  obtain ⟨w₀, ls, hinit, hrun⟩ := h
  have hway : World.OnTheWay start phys size w₀ w := by
    refine hrun.invariant (P := World.OnTheWay start phys size w₀) (fun _ _ _ hw hst => hw.step hst)
      ⟨.of_init hinit.1, fun j => ⟨(hinit.2 j).ok, rfl, Interface.Keeps.refl _⟩,
        World.Started.tagged hinit.1, fun k c hc => ?_⟩
    rw [(hinit.2 k).created] at hc
    exact absurd hc List.not_mem_nil
  have hmeant : ∀ k, ∀ c ∈ (w.proc k).tables.created,
      ∃ p, w.dispatchId p c.pkt = some ((k : ℕ) : ℤ) := fun k c hc => by
    obtain ⟨hip, hto⟩ := hway.meant k c hc
    obtain ⟨p, hp⟩ := hto hip
    exact ⟨p, (hway.dispatchId_eq p _).trans hp⟩
  refine ⟨hmeant, fun k k' c c' hc hc' hs hd hagree => ?_⟩
  obtain ⟨p, hp⟩ := hmeant k c hc
  obtain ⟨p', hp'⟩ := hmeant k' c' hc'
  rw [← World.dispatchId_congr w p' hs hd, hagree p' p, hp] at hp'
  exact Fin.ext (Int.ofNat.inj (Option.some.inj hp'))

/-- It was created there because a dispatcher answered that process. -/
theorem dispatchSystem_owned_segmentProcessed :
    ∃ c ∈ (segmentProcessed.proc 1).tables.created,
      ∃ p, segmentProcessed.dispatchId p c.pkt = some 1 := by
  have hsome : (segmentProcessed.proc 1).tables.created.head?.isSome = true := by decide +kernel
  obtain ⟨c, hc⟩ := Option.isSome_iff_exists.mp hsome
  have hmem := List.mem_of_mem_head? hc
  exact ⟨c, hmem, (dispatchSystem_owned dispatched_segmentProcessed).meant 1 c hmem⟩
