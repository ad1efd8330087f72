import Ustack.Patterns
import Ustack.Translation

/-!
# Closing a TCP connection

The state of a connection moves one step a packet at most, and what moves it are the
FIN and ACK flags alone: `tcp_change_state` does not know which side a packet comes from
nor what an ACK is for. It waits for a FIN, an ACK, a FIN and an ACK on four different
packets (`closePattern`), so the connection is freed by the first packet at which these
have occurred in order.

That is neither necessary nor sufficient for a close to be complete. One side that
repeats its FIN closes the connection by itself; and a close in three packets, where the
second carries both an ACK and a FIN, leaves it open.
-/

/-- **A TCP packet of a connection**, let through by the parser. -/
structure TcpSegment where
  /-- The client sent it, not the server. -/
  from_client : Bool
  /-- It is rewritten as one from the client. -/
  is_client : Bool
  /-- The packet. -/
  pkt : Packet
  /-- The parser let it through. -/
  accepted : PacketAccepted pkt
  /-- It is an IP packet. -/
  is_ip : packetIsIp pkt = true
  /-- It is a TCP packet. -/
  is_tcp : packetIsTcp pkt = true

namespace TcpSegment

/-- The FIN flag. -/
def fin (s : TcpSegment) : Bool := tcpFin s.pkt

/-- The ACK flag. -/
def ack (s : TcpSegment) : Bool := tcpAck s.pkt

end TcpSegment

/-- What `tcp_change_state` waits for. -/
def closePattern : List (TcpSegment → Bool) :=
  [TcpSegment.fin, TcpSegment.ack, TcpSegment.fin, TcpSegment.ack]

/-- The state with so many conditions to go. -/
def tcpStage : ℕ → UInt8
  | 4 => tcpInit
  | 3 => tcpFin1
  | 2 => tcpFin1Ack
  | 1 => tcpFin2
  | _ => tcpClosed

/-- The packets of a connection, processed one after the other until it is freed. -/
def connectionRun (cp : ℕ) : Tables → List TcpSegment → Tables
  | t, [] => t
  | t, s :: l =>
    let t := (processForward t cp s.pkt s.is_client).2.2
    if cp ∈ t.live then connectionRun cp t l else t

/-! ## The state of a connection waits for a pattern -/

/-- Each state waits for one of the two flags. -/
theorem tcpNextState_eq (fin ack : Bool) :
    tcpNextState fin ack tcpInit = (if fin then tcpFin1 else tcpInit)
      ∧ tcpNextState fin ack tcpFin1 = (if ack then tcpFin1Ack else tcpFin1)
      ∧ tcpNextState fin ack tcpFin1Ack = (if fin then tcpFin2 else tcpFin1Ack)
      ∧ tcpNextState fin ack tcpFin2 = (if ack then tcpClosed else tcpFin2)
      ∧ tcpNextState fin ack tcpClosed = tcpClosed := by
  revert fin ack
  decide

/-- **The state machine waits for the pattern.** -/
theorem tcpNextState_stage {ps : List (TcpSegment → Bool)} (h : ps ∈ closePattern.tails)
    (s : TcpSegment) :
    tcpNextState s.fin s.ack (tcpStage ps.length) = tcpStage (awaitStep s ps).length
      ∧ awaitStep s ps ∈ closePattern.tails := by
  obtain ⟨hinit, hfin1, hfin1Ack, hfin2, hclosed⟩ := tcpNextState_eq s.fin s.ack
  simp only [closePattern, List.tails, List.mem_cons, List.not_mem_nil, or_false] at h ⊢
  obtain rfl | rfl | rfl | rfl | rfl := h
  · refine ⟨hinit.trans ?_, ?_⟩ <;> cases hf : s.fin <;> simp [awaitStep, hf, tcpStage]
  · refine ⟨hfin1.trans ?_, ?_⟩ <;> cases ha : s.ack <;> simp [awaitStep, ha, tcpStage]
  · refine ⟨hfin1Ack.trans ?_, ?_⟩ <;> cases hf : s.fin <;> simp [awaitStep, hf, tcpStage]
  · refine ⟨hfin2.trans ?_, ?_⟩ <;> cases ha : s.ack <;> simp [awaitStep, ha, tcpStage]
  · exact ⟨hclosed, by simp [awaitStep]⟩

/-- The state is closed when nothing is waited for. -/
theorem tcpStage_eq_closed {ps : List (TcpSegment → Bool)} (h : ps ∈ closePattern.tails) :
    tcpStage ps.length = tcpClosed ↔ ps = [] := by
  simp only [closePattern, List.tails, List.mem_cons, List.not_mem_nil, or_false] at h
  obtain rfl | rfl | rfl | rfl | rfl := h <;>
    simp [tcpStage, tcpInit, tcpFin1, tcpFin1Ack, tcpFin2, tcpClosed]

/-! ## Packets of a connection -/

namespace TcpSegment

/-- The flags are sent as they came. -/
theorem tcpFlags_processRewrite (s : TcpSegment) (t : Tables) (c : Connection) :
    tcpFlags (processRewrite t c s.pkt s.is_client) = tcpFlags s.pkt := by
  have hf := s.accepted.ipFields s.is_ip
  have hth : (processRewrite t c s.pkt s.is_client).transport_header
      = s.pkt.transport_header := by rw [processRewrite_fields]
  rw [tcpFlags, tcpFlags, hth]
  refine processRewrite_frame t c hf s.is_client (fun hre => ?_)
  unfold Packet.Rewritten at hre
  rw [if_pos s.is_tcp] at hre
  obtain ⟨h4, hhead⟩ | ⟨h4, hhead⟩ := hf.headers
  · rw [if_pos h4] at hre
    omega
  · rw [if_neg (ne_true_of_eq_false h4)] at hre
    omega

end TcpSegment

section Run

variable {t : Tables} {cp : ℕ}

/-- A freed connection is not live. -/
theorem notMem_live_connectionFree (h : t.Ok) : cp ∉ (connectionFree t cp).live := by
  rw [h.live_connectionFree]
  exact h.nodup.not_mem_erase

/-- **A packet of a connection moves its state, and frees it when that is closed.** -/
theorem processForward_segment (h : t.Ok) (hcp : cp ∈ t.live) (s : TcpSegment) :
    (processForward t cp s.pkt s.is_client).2.2.Ok
      ∧ ((processForward t cp s.pkt s.is_client).2.2.conn cp).state
        = tcpNextState s.fin s.ack (t.conn cp).state
      ∧ (cp ∈ (processForward t cp s.pkt s.is_client).2.2.live
        ↔ tcpNextState s.fin s.ack (t.conn cp).state ≠ tcpClosed) := by
  refine ⟨stable_ok.forward h hcp s.pkt s.is_client, ?_⟩
  have htcp : packetIsTcp (processRewrite t (t.conn cp) s.pkt s.is_client) = true := by
    rw [processRewrite_fields]
    exact s.is_tcp
  have hflags := s.tcpFlags_processRewrite t (t.conn cp)
  rw [processForward_eq]
  generalize processRewrite t (t.conn cp) s.pkt s.is_client = out at htcp hflags
  have hnext : tcpChangeState (ngDriverPutPacketToSendBuffer t out) out cp
      = (tcpNextState s.fin s.ack (t.conn cp).state,
        (ngDriverPutPacketToSendBuffer t out).setConn cp
          (fun c => { c with state := tcpNextState s.fin s.ack (t.conn cp).state })) := by
    unfold tcpChangeState tcpFin tcpAck
    rw [hflags]
    rfl
  have hsent : (ngDriverPutPacketToSendBuffer t out).Ok := h.arps rfl
  have hok : ((ngDriverPutPacketToSendBuffer t out).setConn cp
      (fun c => { c with state := tcpNextState s.fin s.ack (t.conn cp).state })).Ok :=
    hsent.assigns (Tables.assigns_setConn_state _ _ _)
  dsimp only
  rw [if_pos htcp, hnext]
  dsimp only
  split
  · rename_i hclosed
    refine ⟨?_, fun hlive => absurd hlive (notMem_live_connectionFree hok),
      fun hno => absurd hclosed hno⟩
    rw [Tables.conn_connectionFree]
    exact congrArg Connection.state (Tables.conn_setConn_self _ _ _)
  · rename_i hclosed
    refine ⟨congrArg Connection.state (Tables.conn_setConn_self _ _ _), fun _ => hclosed,
      fun _ => ?_⟩
    rw [Tables.live_setConn]
    exact hcp

/-- **A connection is freed when what its state waits for has occurred**, and its state
is closed then. -/
theorem connectionRun_stage {ps : List (TcpSegment → Bool)} (hps : ps ∈ closePattern.tails)
    (hne : ps ≠ []) (h : t.Ok) (hcp : cp ∈ t.live)
    (hstate : (t.conn cp).state = tcpStage ps.length) (l : List TcpSegment) :
    (cp ∉ (connectionRun cp t l).live ↔ Occurs ps l)
      ∧ (((connectionRun cp t l).conn cp).state = tcpClosed ↔ Occurs ps l) := by
  rw [← await_eq_nil_iff]
  induction l generalizing t ps with
  | nil =>
    have hopen : ¬ tcpStage ps.length = tcpClosed := fun he => hne ((tcpStage_eq_closed hps).mp he)
    exact ⟨⟨fun hno => absurd hcp hno, fun he => absurd he hne⟩,
      ⟨fun he => absurd (hstate.symm.trans he) hopen, fun he => absurd he hne⟩⟩
  | cons s l ih =>
    obtain ⟨hok, hnext, hlive⟩ := processForward_segment h hcp s
    obtain ⟨hstep, hps'⟩ := tcpNextState_stage hps s
    rw [hstate, hstep] at hnext hlive
    rw [await_cons, connectionRun]
    by_cases hdone : awaitStep s ps = []
    · have hclosed := (tcpStage_eq_closed hps').mpr hdone
      have hfreed : cp ∉ (processForward t cp s.pkt s.is_client).2.2.live :=
        fun hin => (hlive.mp hin) hclosed
      rw [if_neg hfreed, hdone, await_nil]
      exact ⟨iff_of_true hfreed rfl, iff_of_true (hnext.trans hclosed) rfl⟩
    · have hin := hlive.mpr (fun he => hdone ((tcpStage_eq_closed hps').mp he))
      rw [if_pos hin]
      exact ih hps' hdone hok hin hnext

/-- **A connection is freed by FIN, ACK, FIN and ACK in this order**, whoever sends
them. -/
theorem connectionRun_freed_iff (h : t.Ok) (hcp : cp ∈ t.live)
    (hinit : (t.conn cp).state = tcpInit) (l : List TcpSegment) :
    (cp ∉ (connectionRun cp t l).live ↔ Occurs closePattern l)
      ∧ (((connectionRun cp t l).conn cp).state = tcpClosed ↔ Occurs closePattern l) :=
  connectionRun_stage (show closePattern ∈ closePattern.tails by simp [closePattern])
    (by simp [closePattern]) h hcp hinit l

end Run

/-! ## Closes of one side -/

/-- A packet between `10.0.0.3` port 1157 and the virtual server, or between the server
and the self port. -/
def closeSegment (from_client : Bool) (flags : UInt8) : TcpSegment where
  from_client := from_client
  is_client := from_client
  pkt := if from_client then tcpPacket 3 1 [4, 133] [0, 80] flags
    else tcpPacket 4 2 [0, 80] [4, 0] flags
  accepted := by
    split <;> exact accepted_tcpPacket _ _ _ _ _
  is_ip := by
    split <;> exact (tcpPacket_isTcp _ _ _ _ _).1
  is_tcp := by
    split <;> exact (tcpPacket_isTcp _ _ _ _ _).2

/-- The connection of `10.0.0.3` is live and no FIN was seen. -/
theorem open_oneClient : (oneClient 1).Ok ∧ 0x1fff80 ∈ (oneClient 1).live
    ∧ ((oneClient 1).conn 0x1fff80).state = tcpInit :=
  ⟨Tables.ok_of_reachable (reachable_oneClient 1), by decide +kernel, by decide +kernel⟩

/-- Both sides sent a FIN. -/
def BothFins (l : List TcpSegment) : Prop :=
  (∃ s ∈ l, s.fin = true ∧ s.from_client = true)
    ∧ ∃ s ∈ l, s.fin = true ∧ s.from_client = false

/-- **When no connection is torn down that a side has open.** A connection in its
initial state is closed, and freed, only by packets among which both sides sent a FIN, if
and only if they did, or no FIN, ACK, FIN and ACK occur in this order. -/
theorem connectionRun_bothFins_iff {t : Tables} {cp : ℕ} (h : t.Ok) (hcp : cp ∈ t.live)
    (hinit : (t.conn cp).state = tcpInit) (l : List TcpSegment) :
    (((connectionRun cp t l).conn cp).state = tcpClosed ∨ cp ∉ (connectionRun cp t l).live →
        BothFins l)
      ↔ BothFins l ∨ ¬ Occurs closePattern l := by
  obtain ⟨hfreed, hclosed⟩ := connectionRun_freed_iff h hcp hinit l
  rw [hfreed, hclosed, or_self, or_comm]
  exact imp_iff_not_or

theorem connectionRun_bothFins_iff_repeated :
    (((connectionRun 0x1fff80 (oneClient 1) (List.replicate 4 (closeSegment true 17))).conn
          0x1fff80).state = tcpClosed
        ∨ 0x1fff80 ∉ (connectionRun 0x1fff80 (oneClient 1)
          (List.replicate 4 (closeSegment true 17))).live →
        BothFins (List.replicate 4 (closeSegment true 17)))
      ↔ BothFins (List.replicate 4 (closeSegment true 17))
        ∨ ¬ Occurs closePattern (List.replicate 4 (closeSegment true 17)) :=
  connectionRun_bothFins_iff open_oneClient.1 open_oneClient.2.1 open_oneClient.2.2 _

/-- **A client that repeats its FIN closes a connection the server has open.** -/
theorem repeated_fin_closes :
    processSystem.Reachable (oneClient 1) ∧ 0x1fff80 ∈ (oneClient 1).live
      ∧ ((oneClient 1).conn 0x1fff80).state = tcpInit
      ∧ ((connectionRun 0x1fff80 (oneClient 1)
        (List.replicate 4 (closeSegment true 17))).conn 0x1fff80).state = tcpClosed
      ∧ 0x1fff80 ∉ (connectionRun 0x1fff80 (oneClient 1)
        (List.replicate 4 (closeSegment true 17))).live
      ∧ ¬ BothFins (List.replicate 4 (closeSegment true 17)) := by
  obtain ⟨hok, hlive, hinit⟩ := open_oneClient
  obtain ⟨hfreed, hclosed⟩ := connectionRun_freed_iff hok hlive hinit
    (List.replicate 4 (closeSegment true 17))
  have hoccurs : Occurs closePattern (List.replicate 4 (closeSegment true 17)) :=
    (await_eq_nil_iff _ _).mp (by decide)
  refine ⟨reachable_oneClient 1, hlive, hinit, hclosed.mpr hoccurs, hfreed.mpr hoccurs,
    fun hboth => ?_⟩
  obtain ⟨-, s, hs, -, hserver⟩ := hboth
  rw [List.eq_of_mem_replicate hs] at hserver
  exact absurd hserver (by decide)

/-! ## Complete closes -/

/-- Every side sent a FIN, and every FIN was followed by a packet with an ACK from the
other side. -/
structure CloseComplete (l : List TcpSegment) : Prop where
  /-- Both sides sent a FIN. -/
  fins : BothFins l
  /-- The other side acknowledged each. -/
  acked : ∀ before s after, l = before ++ s :: after → s.fin = true →
    ∃ a ∈ after, a.ack = true ∧ a.from_client ≠ s.from_client

/-- **When a complete close releases the connection.** The packets up to the last of the
ACKs that complete a close are a complete close themselves; after the packets of a
complete close the connection is closed, and freed, if and only if FIN, ACK, FIN and ACK
occur among them in this order, on four packets. -/
theorem connectionRun_complete_iff {t : Tables} {cp : ℕ} (h : t.Ok) (hcp : cp ∈ t.live)
    (hinit : (t.conn cp).state = tcpInit) (l : List TcpSegment) :
    (CloseComplete l →
        ((connectionRun cp t l).conn cp).state = tcpClosed ∧ cp ∉ (connectionRun cp t l).live)
      ↔ (CloseComplete l → Occurs closePattern l) := by
  obtain ⟨hfreed, hclosed⟩ := connectionRun_freed_iff h hcp hinit l
  rw [hfreed, hclosed, and_self]

/-- A close in three packets: the server acknowledges the FIN of the client on its own. -/
def threeSegments : List TcpSegment :=
  [closeSegment true 17, closeSegment false 17, closeSegment true 16]

theorem closeComplete_threeSegments : CloseComplete threeSegments where
  fins := ⟨⟨closeSegment true 17, by simp [threeSegments], by decide, rfl⟩,
    closeSegment false 17, by simp [threeSegments], by decide, rfl⟩
  acked := by
    intro before s after hl hfin
    obtain _ | ⟨x, _ | ⟨y, _ | ⟨z, before⟩⟩⟩ := before
    all_goals simp only [threeSegments, List.nil_append, List.cons_append, List.cons.injEq] at hl
    · obtain ⟨rfl, rfl⟩ := hl
      exact ⟨closeSegment false 17, by simp, by decide, by decide⟩
    · obtain ⟨-, rfl, rfl⟩ := hl
      exact ⟨closeSegment true 16, by simp, by decide, by decide⟩
    · obtain ⟨-, -, rfl, rfl⟩ := hl
      exact absurd hfin (by decide)
    · exact absurd hl.2.2.2 (by simp)

theorem connectionRun_complete_iff_threeSegments :
    (CloseComplete threeSegments →
        ((connectionRun 0x1fff80 (oneClient 1) threeSegments).conn 0x1fff80).state = tcpClosed
          ∧ 0x1fff80 ∉ (connectionRun 0x1fff80 (oneClient 1) threeSegments).live)
      ↔ (CloseComplete threeSegments → Occurs closePattern threeSegments) :=
  connectionRun_complete_iff open_oneClient.1 open_oneClient.2.1 open_oneClient.2.2 _

/-- **A close in three packets leaves the connection open.** -/
theorem three_segments_leave_open :
    processSystem.Reachable (oneClient 1) ∧ 0x1fff80 ∈ (oneClient 1).live
      ∧ ((oneClient 1).conn 0x1fff80).state = tcpInit ∧ CloseComplete threeSegments
      ∧ ((connectionRun 0x1fff80 (oneClient 1) threeSegments).conn 0x1fff80).state ≠ tcpClosed
      ∧ 0x1fff80 ∈ (connectionRun 0x1fff80 (oneClient 1) threeSegments).live := by
  obtain ⟨hok, hlive, hinit⟩ := open_oneClient
  obtain ⟨hfreed, hclosed⟩ := connectionRun_freed_iff hok hlive hinit threeSegments
  have hoccurs : ¬ Occurs closePattern threeSegments := by
    rw [← await_eq_nil_iff]
    exact List.ne_nil_of_length_pos (by decide)
  exact ⟨reachable_oneClient 1, hlive, hinit, closeComplete_threeSegments,
    fun hstate => hoccurs (hclosed.mp hstate), not_not.mp (fun hno => hoccurs (hfreed.mp hno))⟩
