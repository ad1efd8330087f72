import Ustack.Creation

/-!
# The containers of a connection

A connection is linked in the client hash table, the timer wheel and, in full-NAT
mode, the self hash table, all inside memory the pool has handed out. `Tables.Ok`
says these agree, and every way a connection comes and goes keeps it: a creation
that succeeds or fails, a close, and a timeout, which frees the connection while
the slot its timer is in is being walked.
-/

/-! ## The four containers -/

namespace Tables

/-- The structures handed out that are full-NAT connections. -/
def fullnat (t : Tables) : List ℕ :=
  t.conn_mem_pool.outstanding.filter (fun cp => connectionIsFullnat (t.conn cp))

/-- **The containers agree**: the connections in the client hash table, those in
the timer wheel and the structures handed out are the same, each once, the self
hash table holds the full-NAT ones, and `connection_free` was only called on
connections that were live. -/
structure Ok (t : Tables) : Prop where
  /-- The memory is accounted for. -/
  mem : t.conn_mem_pool.Ok
  /-- The client hash table holds the structures handed out. -/
  client : t.live.Perm t.conn_mem_pool.outstanding
  /-- The timer wheel holds the structures handed out. -/
  timer : t.timed.Perm t.conn_mem_pool.outstanding
  /-- The self hash table holds the full-NAT ones. -/
  self : t.liveSelf.Perm t.fullnat
  /-- The hand is on a slot. -/
  wheel : t.clock.next_clock_second < t.clock.total_clock_seconds
  /-- No range holds port zero. -/
  ranges : t.itf.RangesOk
  /-- Only live connections were freed. -/
  freed : ∀ e ∈ t.freed, e.2 = true

variable {t t' : Tables} {cp : ℕ}

theorem Ok.nodup (h : t.Ok) : t.live.Nodup :=
  h.client.nodup_iff.mpr h.mem.nodup_outstanding

theorem Ok.mem_live (h : t.Ok) : cp ∈ t.live ↔ cp ∈ t.conn_mem_pool.outstanding :=
  h.client.mem_iff

/-- The self hash table holds the live full-NAT connections. -/
theorem Ok.mem_liveSelf (h : t.Ok) :
    cp ∈ t.liveSelf ↔ cp ∈ t.live ∧ connectionIsFullnat (t.conn cp) = true := by
  rw [h.self.mem_iff, fullnat, List.mem_filter, h.mem_live]

/-- Assigning fields other than the mode keeps the containers. -/
theorem Ok.of_conn (h : t.Ok) {conn : ℕ → Connection}
    (hc : ∀ x, connectionIsFullnat (conn x) = connectionIsFullnat (t.conn x)) :
    Ok { t with conn := conn } where
  mem := h.mem
  client := h.client
  timer := h.timer
  self := by
    refine h.self.trans (List.Perm.of_eq ?_)
    exact List.filter_congr (fun x _ => (hc x).symm)
  wheel := h.wheel
  ranges := h.ranges
  freed := h.freed

/-- **A creation that fails keeps the containers.** -/
theorem Ok.notCreated (h : t.Ok) (hn : NotCreated t t') : t'.Ok := by
  obtain ⟨heq, hconn, -, -, hlip, hout, hmem⟩ := hn
  have hlive : t'.live = t.live := by rw [heq]; rfl
  have htimed : t'.timed = t.timed := by rw [heq]; rfl
  have hself : t'.liveSelf = t.liveSelf := by rw [heq]; rfl
  have hfull : t'.fullnat = t.fullnat := by
    rw [fullnat, hout]
    exact List.filter_congr (fun x hx => by rw [hconn x hx])
  refine ⟨hmem, by rw [hlive, hout]; exact h.client, by rw [htimed, hout]; exact h.timer,
    by rw [hself, hfull]; exact h.self, by rw [heq]; exact h.wheel, ?_,
    by rw [heq]; exact h.freed⟩
  intro l b
  rw [hlip]
  exact h.ranges l b

theorem bucket_lt (hashRand : UInt32) (key : Connection → NetAddress) (c : Connection) :
    c.bucket hashRand key < connHtSize := by
  unfold Connection.bucket connectionHashkey connHtSize
  rw [UInt32.toNat_and]
  exact lt_of_le_of_lt Nat.and_le_right (by decide)

/-- The ranges after a connection took its port, or took none. -/
theorem Ok.ranges_of_setUp (h : t.Ok) {pkt : Packet} {vs : ℕ} {itf : Interface}
    {c : Connection} (hs : SetUp t pkt vs itf c) : itf.RangesOk := by
  have hof : ∀ i : Interface, i.lip = itf.lip → i.RangesOk → itf.RangesOk :=
    fun i hi hr l b => hi ▸ hr l b
  cases hf : connectionIsFullnat c with
  | false => exact hof t.itf (hs.kept hf).symm h.ranges
  | true =>
    have ht := hs.took hf
    refine hof _ ht.lip_eq.symm (h.ranges.setLip ⟨?_, ?_⟩)
    · exact (h.ranges c.self_addr (connectionIsTcp c)).1.getPort1
    · exact PortRange.ne_zero_getPort1 (h.ranges c.self_addr (connectionIsTcp c)).2

/-- **A creation that succeeds keeps the containers.** -/
theorem Ok.created (h : t.Ok) {pkt : Packet} {vs : ℕ} (hc : Created t pkt vs cp t') :
    t'.Ok := by
  obtain ⟨heq, hconn, -, -, hset, hfresh, hout, hmem⟩ := hc
  have hlive : t'.live = linked connHtSize (bucketAdd t.client_hashtable
      ((t'.conn cp).bucket t.hash_rand Connection.client) cp) := by
    conv_lhs => rw [heq]
    rfl
  have htimed : t'.timed = linked t.clock.total_clock_seconds
      (timerAdd t.clock cp connectionTimeoutSeconds).timer_table := by
    conv_lhs => rw [heq]
    rfl
  have hself : t'.liveSelf = linked connHtSize (if connectionIsFullnat (t'.conn cp) then
      bucketAdd t.self_hashtable
        ((t'.conn cp).bucket t.hash_rand (Connection.self t'.itf.lip)) cp
      else t.self_hashtable) := by
    conv_lhs => rw [heq]
    rfl
  have hold : t.conn_mem_pool.outstanding.filter (fun x => connectionIsFullnat (t'.conn x))
      = t.fullnat :=
    List.filter_congr (fun x hx => by rw [hconn x (fun he => hfresh (he ▸ hx))])
  refine ⟨hmem, ?_, ?_, ?_, by rw [heq]; exact h.wheel, h.ranges_of_setUp hset,
    by rw [heq]; exact h.freed⟩
  · rw [hlive, hout]
    exact (linked_bucketAdd (bucket_lt _ _ _) _ _).trans (h.client.cons cp)
  · rw [htimed, hout]
    exact (linked_timerAdd (Nat.zero_lt_of_lt h.wheel) cp connectionTimeoutSeconds).trans (h.timer.cons cp)
  · rw [hself, fullnat, hout, List.filter_cons, hold]
    split
    · exact (linked_bucketAdd (bucket_lt _ _ _) _ _).trans (h.self.cons cp)
    · exact h.self

/-- **Creating keeps the containers**, whether it succeeds or fails. -/
theorem Ok.create (h : t.Ok) {malloc : Option ℕ} (hm : t.conn_mem_pool.MallocOk malloc)
    (pkt : Packet) (vs : ℕ) : (connectionCreate malloc t pkt vs).2.Ok := by
  have hs := connectionCreate_spec h.mem hm h.ranges pkt vs
  split at hs
  · exact h.notCreated hs
  · exact h.created hs

/-- What freeing a connection does, all at once. -/
theorem connectionFree_eq (t : Tables) (cp : ℕ) :
    connectionFree t cp = { t with
      itf := if connectionIsFullnat (t.conn cp) then
        t.itf.setLip (t.conn cp).self_addr
          (lipPutPort (connectionIsTcp (t.conn cp)) (t.itf.lip (t.conn cp).self_addr)
            (t.conn cp).self_port)
        else t.itf
      clock := timerDel t.clock cp
      client_hashtable := bucketDel t.client_hashtable cp
      self_hashtable := if connectionIsFullnat (t.conn cp) then
        bucketDel t.self_hashtable cp else t.self_hashtable
      conn_mem_pool := memPoolFree t.conn_mem_pool cp
      freed := t.freed ++ [(cp, decide (cp ∈ t.live))] } := by
  unfold connectionFree connectionDel connectoinPutFree
  cases hf : connectionIsFullnat (t.conn cp) with
  | true => simp only [hf, if_true, setItf]
  | false => simp only [hf, Bool.false_eq_true, if_false]

/-- The structure itself is not touched. -/
@[simp] theorem conn_connectionFree (t : Tables) (cp : ℕ) :
    (connectionFree t cp).conn = t.conn := by
  rw [connectionFree_eq]

theorem outstanding_connectionFree (t : Tables) (cp : ℕ) :
    (connectionFree t cp).conn_mem_pool.outstanding = t.conn_mem_pool.outstanding.erase cp := by
  rw [connectionFree_eq]
  rfl

/-- It is not live any more. -/
theorem Ok.live_connectionFree (h : t.Ok) (cp : ℕ) :
    (connectionFree t cp).live = t.live.erase cp := by
  rw [connectionFree_eq]
  exact linked_bucketDel h.nodup

/-- A full-NAT connection returns its port. -/
theorem itf_connectionFree (t : Tables) (cp : ℕ) :
    (connectionFree t cp).itf = if connectionIsFullnat (t.conn cp) then
      t.itf.setLip (t.conn cp).self_addr
        (lipPutPort (connectionIsTcp (t.conn cp)) (t.itf.lip (t.conn cp).self_addr)
          (t.conn cp).self_port)
      else t.itf := by
  rw [connectionFree_eq]

/-- **Freeing a live connection keeps the containers.** -/
theorem Ok.free (h : t.Ok) (hcp : cp ∈ t.live) : (connectionFree t cp).Ok := by
  rw [connectionFree_eq]
  have hnodup := h.mem.nodup_outstanding
  refine ⟨h.mem.free (h.mem_live.mp hcp), ?_, ?_, ?_, h.wheel, ?_, ?_⟩
  · show (linked connHtSize (bucketDel t.client_hashtable cp)).Perm
      (t.conn_mem_pool.outstanding.erase cp)
    rw [linked_bucketDel h.nodup]
    exact h.client.erase cp
  · show (linked t.clock.total_clock_seconds (bucketDel t.clock.timer_table cp)).Perm
      (t.conn_mem_pool.outstanding.erase cp)
    rw [linked_bucketDel (h.timer.nodup_iff.mpr hnodup)]
    exact h.timer.erase cp
  · show (linked connHtSize (if connectionIsFullnat (t.conn cp) then
        bucketDel t.self_hashtable cp else t.self_hashtable)).Perm
      ((t.conn_mem_pool.outstanding.erase cp).filter
        (fun x => connectionIsFullnat (t.conn x)))
    rw [hnodup.erase_eq_filter, List.filter_filter]
    split
    · rename_i hf
      rw [linked_bucketDel (h.self.nodup_iff.mpr (hnodup.filter _))]
      refine (h.self.erase cp).trans (List.Perm.of_eq ?_)
      rw [fullnat, (hnodup.filter _).erase_eq_filter, List.filter_filter]
      exact List.filter_congr (fun x _ => Bool.and_comm _ _)
    · rename_i hf
      refine h.self.trans (List.Perm.of_eq ?_)
      refine List.filter_congr (fun x _ => ?_)
      by_cases hx : x = cp
      · simp [hx, hf]
      · simp [hx]
  · show Interface.RangesOk (if connectionIsFullnat (t.conn cp) then _ else t.itf)
    split
    · have hr := h.ranges (t.conn cp).self_addr (connectionIsTcp (t.conn cp))
      exact h.ranges.setLip ⟨hr.1.putPort _, PortRange.ne_zero_putPort hr.1 hr.2 _⟩
    · exact h.ranges
  · intro e he
    rcases List.mem_append.mp he with he | he
    · exact h.freed e he
    · rw [List.mem_singleton.mp he]
      simp only [hcp, decide_true]

end Tables

/-! ## Timeouts -/

namespace Tables

variable {t : Tables} {cp : ℕ}

theorem Ok.mem_timed (h : t.Ok) : cp ∈ t.timed ↔ cp ∈ t.live := by
  rw [h.timer.mem_iff, h.mem_live]

/-- Any wheel with the same timers will do. -/
theorem Ok.of_clock (h : t.Ok) {clock : Clock}
    (htable : clock.timer_table = t.clock.timer_table)
    (htotal : clock.total_clock_seconds = t.clock.total_clock_seconds)
    (hwheel : clock.next_clock_second < clock.total_clock_seconds) :
    Ok { t with clock := clock } where
  mem := h.mem
  client := h.client
  timer := by
    show (linked clock.total_clock_seconds clock.timer_table).Perm _
    rw [htable, htotal]
    exact h.timer
  self := h.self
  wheel := hwheel
  ranges := h.ranges
  freed := h.freed

@[simp] theorem clock_connectionFree (t : Tables) (cp : ℕ) :
    (connectionFree t cp).clock = timerDel t.clock cp := by
  rw [connectionFree_eq]

/-- **A tick**: the hand moves, and the connections whose timers are in its slot are freed.
The walk is over the slot its handler unlinks from. -/
theorem timerTick_step {Q : Tables → Prop}
    (hfree : ∀ t cp, Q t → cp ∈ t.clock.timer_table t.clock.next_clock_second →
      Q (connectionFree t cp))
    (h : Q { t with clock := { t.clock with
      next_clock_second := wrapNext t.clock.total_clock_seconds t.clock.next_clock_second } }) :
    Q (timerTick Tables.clock (fun t clock => { t with clock := clock })
      connectionTimeout t) := by
  unfold timerTick
  dsimp only
  generalize wrapNext t.clock.total_clock_seconds t.clock.next_clock_second = next at h
  -- the walk leaves the hand where it is
  refine (forEachSafe_eq_foldl
    (P := fun s => Q s ∧ s.clock.next_clock_second = next)
    (fun s x hs hx => ?_) (fun s x _ _ => ?_) ⟨h, rfl⟩).2.1
  · obtain ⟨hqs, hhand⟩ := hs
    refine ⟨hfree s x hqs (hhand ▸ hx), ?_⟩
    exact (congrArg Clock.next_clock_second (clock_connectionFree s x)).trans hhand
  · show (connectionFree s x).clock.timer_table next = _
    rw [clock_connectionFree]
    rfl

/-- What `connectionTimeout` keeps of live connections, a tick keeps. -/
theorem timerTick_invariant {P : Tables → Prop} (hP : ∀ t, P t → t.Ok)
    (hclock : ∀ t next, P t → next < t.clock.total_clock_seconds →
      P { t with clock := { t.clock with next_clock_second := next } })
    (hfree : ∀ t cp, P t → cp ∈ t.live → P (connectionFree t cp)) (h : P t) :
    P (timerTick Tables.clock (fun t clock => { t with clock := clock })
      connectionTimeout t) := by
  refine timerTick_step (fun s x hs hx => hfree s x hs ?_)
    (hclock t _ h (wrapNext_lt (hP t h).wheel))
  exact (hP s hs).mem_timed.mp (mem_linked.mpr ⟨_, (hP s hs).wheel, hx⟩)

/-- **What holds of the containers through frees, an expiry keeps.** -/
theorem timerExpire_invariant {P : Tables → Prop} (hP : ∀ t, P t → t.Ok)
    (hclock : ∀ t clock, P t → clock.timer_table = t.clock.timer_table →
      clock.total_clock_seconds = t.clock.total_clock_seconds →
      clock.next_clock_second < clock.total_clock_seconds →
      P { t with clock := clock })
    (hfree : ∀ t cp, P t → cp ∈ t.live → P (connectionFree t cp)) (h : P t) (now : ℕ) :
    P (connectionTimerExpire t now) := by
  unfold connectionTimerExpire
  refine timerExpire_keeps _ _ _ (fun s hs => ?_) (fun s _ _ _ hs => ?_) h now
  · exact timerTick_invariant hP
      (fun t next ht hnext => hclock t _ ht rfl rfl hnext) hfree hs
  · exact hclock s _ hs rfl rfl (hP s hs).wheel

/-- **An expiry keeps the containers.** -/
theorem Ok.timerExpire (h : t.Ok) (now : ℕ) : (connectionTimerExpire t now).Ok :=
  timerExpire_invariant (fun _ => id)
    (fun _ _ ht htable htotal hwheel => ht.of_clock htable htotal hwheel)
    (fun _ _ ht hcp => ht.free hcp) h now

end Tables

/-! ## Initial tables -/

theorem portRangeInit_ok (n : ℕ) (port1 port2 : UInt16) :
    (portRangeInit (portRangeCreate n) port1 port2).InStep
      ∧ (0 : UInt16) ∉ (portRangeInit (portRangeCreate n) port1 port2).available := by
  rw [portRangeInit_eq_foldl]
  have key : ∀ (ps : List UInt16) (r : PortRange), r.InStep ∧ (0 : UInt16) ∉ r.available →
      (ps.foldl portRangePutPort r).InStep
        ∧ (0 : UInt16) ∉ (ps.foldl portRangePutPort r).available := by
    intro ps
    induction ps with
    | nil => exact fun _ h => h
    | cons p ps ih =>
      exact fun r h => ih _ ⟨h.1.putPort p, PortRange.ne_zero_putPort h.1 h.2 p⟩
  exact key _ _ ⟨PortRange.inStep_create n, List.not_mem_nil⟩

namespace Interface

theorem RangesOk.create {itf : Interface} (h : itf.RangesOk) (hashRand : UInt32)
    (ip : IpAddress) (type nic_id : ℕ) :
    (interfaceCreateLocalIp hashRand itf ip type nic_id).2.RangesOk := by
  intro l b
  show ((Function.update itf.lip itf.lip_num
    (lipIpSpaceCreateLocalIp itf.space ip type nic_id) l).range b).InStep ∧ _ ∉
      ((Function.update itf.lip itf.lip_num
        (lipIpSpaceCreateLocalIp itf.space ip type nic_id) l).range b).available
  by_cases hl : l = itf.lip_num
  · rw [hl, Function.update_self]
    cases b <;> exact portRangeInit_ok _ _ _
  · rw [Function.update_of_ne hl]
    exact h l b

theorem RangesOk.addLocalIps {itf : Interface} (h : itf.RangesOk) (hashRand : UInt32)
    (ips : List (IpAddress × ℕ × ℕ)) : (itf.addLocalIps hashRand ips).RangesOk := by
  induction ips generalizing itf with
  | nil => exact h
  | cons a ips ih => exact ih (h.create hashRand a.1 a.2.1 a.2.2)

theorem rangesOk_init (num : ℕ) (vs_low vs_high self_low self_high : UInt16) :
    (interfaceModuleInit num vs_low vs_high self_low self_high).RangesOk :=
  fun _ b => by cases b <;> exact ⟨PortRange.inStep_create 0, List.not_mem_nil⟩

end Interface

/-- The tables of a process that has initialised its modules and added its local
addresses: any routes, servers and virtual servers, no connections. -/
structure Tables.Started (t : Tables) : Prop where
  /-- The interface holds the addresses added to it. -/
  itf : ∃ num vs_low vs_high self_low self_high ips,
    t.itf = (interfaceModuleInit num vs_low vs_high self_low self_high).addLocalIps
      t.hash_rand ips
  /-- The wheel is empty. -/
  clock : ∃ now, t.clock = timerModuleInit now defaultSeconds
  /-- The connection module is initialised. -/
  conn : ∃ t₀, t = connectionModuleInit t₀
  /-- Nothing is handed to the driver. -/
  sent : t.sent = []
  /-- No connection was created. -/
  created : t.created = []
  /-- None was freed. -/
  freed : t.freed = []

/-- **The containers of a process that has just started are empty.** -/
theorem Tables.Started.ok {t : Tables} (h : t.Started) : t.Ok := by
  obtain ⟨num, vs_low, vs_high, self_low, self_high, ips, hitf⟩ := h.itf
  obtain ⟨now, hclock⟩ := h.clock
  obtain ⟨t₀, ht₀⟩ := h.conn
  have hmem : t.conn_mem_pool = memPoolCreate sizeofConnection := by rw [ht₀]; rfl
  have hclient : t.client_hashtable = fun _ => [] := by rw [ht₀]; rfl
  have hself : t.self_hashtable = fun _ => [] := by rw [ht₀]; rfl
  have hout : t.conn_mem_pool.outstanding = [] := by rw [hmem]; rfl
  refine ⟨by rw [hmem]; exact MemPool.ok_create (by decide), ?_, ?_, ?_, ?_, ?_, ?_⟩
  · rw [hout, Tables.live, hclient, linked_nil]
  · rw [hout, Tables.timed, hclock, timerModuleInit, linked_nil]
  · rw [Tables.fullnat, hout, Tables.liveSelf, hself, linked_nil]
    exact List.Perm.refl _
  · rw [hclock]
    show 0 < (if defaultSeconds < 0 then defaultSeconds else defaultSeconds).toNat
    decide
  · rw [hitf]
    exact (Interface.rangesOk_init _ _ _ _ _).addLocalIps _ _
  · rw [h.freed]
    exact fun e he => absurd he List.not_mem_nil

/-! ## A small network -/

/-- A server `10.0.0.x` on port 80. -/
def serverTen (x : UInt32) (mac : Mac) : Server := ⟨⟨netTen x, htons 80⟩, mac⟩

/-- A process with hash seed zero, the given local addresses, and two TCP virtual
servers on its first address, on ports 80 and 81, both served by `10.0.0.4`. -/
def twoVservers (itf : Interface) (is_fullnat : UInt8) : Tables :=
  let vservers := vserverModuleInit (fun _ => ⟨0, 0, 0, 0, 0⟩)
  let vservers := (vserverCreate vservers 0 (htons 80) protoTcp is_fullnat).2
  let vservers := (vserverCreate vservers 0 (htons 81) protoTcp is_fullnat).2
  connectionModuleInit
    { hash_rand := 0
      itf := itf
      rt := rtAddEntry 0 (fun _ => []) ⟨netTen 4, 0⟩
      vservers := vserverAddIp 0 itf (vserverAddIp 0 itf vservers 0 0) 1 0
      pool := fun _ => ⟨fun _ => serverTen 4 (fun _ => 4), 1, 0⟩
      server_list := [(0, 0)]
      mac := fun _ _ => 9
      clock := timerModuleInit 0 defaultSeconds
      conn_mem_pool := memPoolCreate sizeofConnection
      conn := fun _ => ⟨none, 0, (0, 0), 0, netTen 0, 0, 0, 0, 0, 0, 0, fun _ => 0, 0, 0, 0⟩
      client_hashtable := fun _ => []
      self_hashtable := fun _ => []
      sent := []
      created := []
      freed := [] }

theorem started_twoVservers (self_low self_high : UInt16) (is_fullnat : UInt8) :
    (twoVservers (twoIps self_low self_high) is_fullnat).Started where
  itf := ⟨1, 1024, 65535, self_low, self_high, _, rfl⟩
  clock := ⟨0, rfl⟩
  conn := ⟨_, rfl⟩
  sent := rfl
  created := rfl
  freed := rfl

/-- Any chunk will do for an empty pool. -/
theorem mallocOk_twoVservers (itf : Interface) (is_fullnat : UInt8) (start : ℕ) :
    (twoVservers itf is_fullnat).conn_mem_pool.MallocOk (some start) :=
  fun _ _ _ hc => absurd hc List.not_mem_nil
