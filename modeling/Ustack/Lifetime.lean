import Ustack.Flow

/-!
# A connection lives a minute at most

`connection_create` puts the timer of a new connection `CONNECTION_TIMEOUT_SECONDS` ahead of the
hand of the wheel, and nothing moves it: packets of the connection do not, and the handler frees
the connection. So a connection lives until a FIN closes it or its slot comes round, whichever
is first, and no longer (`connection_lifetime`). A process that no new client comes to gives
everything back within a minute (`idle_process_empties`).
-/

/-! ## What keeps the timers -/

theorem created_connectionFree (t : Tables) (cp : ℕ) :
    (connectionFree t cp).created = t.created := by
  rw [Tables.connectionFree_eq]

/-- An expiry makes no connection live. -/
theorem live_connectionTimerExpire_subset {t : Tables} (h : t.Ok) (now : ℕ) :
    (connectionTimerExpire t now).live ⊆ t.live :=
  (Tables.timerExpire_invariant (P := fun s => s.Ok ∧ s.live ⊆ t.live) (fun _ hs => hs.1)
    (fun _ _ hs htable htotal hwheel => ⟨hs.1.of_clock htable htotal hwheel, hs.2⟩)
    (fun _ _ hs hcp => ⟨hs.1.free hcp,
      List.Subset.trans (Tables.live_connectionFree_subset hs.1) hs.2⟩)
    ⟨h, List.Subset.refl _⟩ now).2

/-- An expiry creates no connection. -/
theorem created_connectionTimerExpire {t : Tables} (h : t.Ok) (now : ℕ) :
    (connectionTimerExpire t now).created = t.created :=
  (Tables.timerExpire_invariant (P := fun s => s.Ok ∧ s.created = t.created) (fun _ hs => hs.1)
    (fun _ _ hs htable htotal hwheel => ⟨hs.1.of_clock htable htotal hwheel, hs.2⟩)
    (fun _ _ hs hcp => ⟨hs.1.free hcp, (created_connectionFree _ _).trans hs.2⟩) ⟨h, rfl⟩ now).2

namespace Tables

/-- **What keeps the timers**: the hand stays, nothing becomes live, and what stays live stays
in its slot. -/
structure KeepsTimers (t t' : Tables) : Prop where
  /-- The hand. -/
  hand : t'.clock.next_clock_second = t.clock.next_clock_second
  /-- The wheel. -/
  total : t'.clock.total_clock_seconds = t.clock.total_clock_seconds
  /-- The live connections. -/
  live : t'.live ⊆ t.live
  /-- Their slots. -/
  slot : ∀ x ∈ t'.live, ∀ i, x ∈ t.clock.timer_table i → x ∈ t'.clock.timer_table i
  /-- The history. -/
  created : t'.created = t.created

variable {t t' t'' : Tables} {cp : ℕ}

theorem KeepsTimers.of_eq (hclock : t'.clock = t.clock) (hlive : t'.live = t.live)
    (hcreated : t'.created = t.created) : t.KeepsTimers t' where
  hand := by rw [hclock]
  total := by rw [hclock]
  live := by
    rw [hlive]
    exact List.Subset.refl _
  slot _ _ i hi := by rwa [hclock]
  created := hcreated

theorem KeepsTimers.refl (t : Tables) : t.KeepsTimers t := .of_eq rfl rfl rfl

theorem KeepsTimers.trans (h : t.KeepsTimers t') (h' : t'.KeepsTimers t'') :
    t.KeepsTimers t'' where
  hand := h'.hand.trans h.hand
  total := h'.total.trans h.total
  live := List.Subset.trans h'.live h.live
  slot x hx i hi := h'.slot x hx i (h.slot x (h'.live hx) i hi)
  created := h'.created.trans h.created

theorem Assigns.keepsTimers (h : t.Assigns t') : t.KeepsTimers t' := by
  refine .of_eq ?_ ?_ ?_ <;> rw [h.eq]
  rfl

theorem Arps.keepsTimers (h : t.Arps t') : t.KeepsTimers t' := by
  refine .of_eq ?_ ?_ ?_ <;> rw [h]
  rfl

/-- A creation that fails. -/
theorem keepsTimers_notCreated (hn : NotCreated t t') : t.KeepsTimers t' := by
  refine .of_eq ?_ hn.sameConnections.live ?_ <;> rw [hn.eq]

/-- Freeing a connection takes its timer out with it. -/
theorem Ok.keepsTimers_free (h : t.Ok) (cp : ℕ) : t.KeepsTimers (connectionFree t cp) where
  hand := by rw [clock_connectionFree]; rfl
  total := by rw [clock_connectionFree]; rfl
  live := live_connectionFree_subset h
  slot x hx i hi := by
    have hne : x ≠ cp := by
      rw [h.live_connectionFree] at hx
      exact (h.nodup.mem_erase_iff.mp hx).1
    rw [clock_connectionFree]
    exact (List.mem_erase_of_ne hne).mpr hi
  created := created_connectionFree t cp

/-- **Forwarding a packet moves no timer.** -/
theorem Ok.keepsTimers_forward (h : t.Ok) (cp : ℕ) (pkt : Packet) (is_client : Bool) :
    t.KeepsTimers (processForward t cp pkt is_client).2.2 := by
  rw [processForward_eq]
  dsimp only
  generalize processRewrite t (t.conn cp) pkt is_client = out
  have harps : t.Arps (ngDriverPutPacketToSendBuffer t out) := rfl
  have hassigns : (ngDriverPutPacketToSendBuffer t out).Assigns
      (tcpChangeState (ngDriverPutPacketToSendBuffer t out) out cp).2 :=
    assigns_setConn_state _ _ _
  have hstate := harps.keepsTimers.trans hassigns.keepsTimers
  split
  · split
    · exact hstate.trans (((h.arps harps).assigns hassigns).keepsTimers_free cp)
    · exact hstate
  · exact harps.keepsTimers

end Tables

/-! ## The timers of the live connections -/

namespace Tables

/-- **The timers after `n` ticks**: a live connection was created before, no longer ago than its
timeout, and its timer is as far ahead of the hand as its time is not over. -/
structure Timers (V : VserverTable) (life : ℕ → Life) (t : Tables) (n : ℕ) : Prop where
  /-- The wheel. -/
  wheel : t.Wheel V
  /-- The connections were created before. -/
  born_le : ∀ x ∈ t.live, (life x).born ≤ n
  /-- Their time is not over for long. -/
  le : ∀ x ∈ t.live, n ≤ (life x).born + connectionTimeoutSeconds.toNat
  /-- Their slots. -/
  slot : ∀ x ∈ t.live, x ∈ t.clock.timer_table
    ((t.clock.next_clock_second + ((life x).born + connectionTimeoutSeconds.toNat - n))
      % t.clock.total_clock_seconds)

/-- **Every live connection is in its time.** -/
structure InTime (V : VserverTable) (life : ℕ → Life) (t : Tables) (n : ℕ) : Prop
    extends Timers V life t n where
  /-- No time is over. -/
  lt : ∀ x ∈ t.live, n < (life x).born + connectionTimeoutSeconds.toNat

variable {V : VserverTable} {life : ℕ → Life} {t t' : Tables} {n : ℕ}

theorem Timers.keeps (h : t.Timers V life n) (hw : t'.Wheel V) (hk : t.KeepsTimers t') :
    t'.Timers V life n where
  wheel := hw
  born_le x hx := h.born_le x (hk.live hx)
  le x hx := h.le x (hk.live hx)
  slot x hx := by
    rw [hk.hand, hk.total]
    exact hk.slot x hx _ (h.slot x (hk.live hx))

theorem InTime.keeps (h : t.InTime V life n) (hw : t'.Wheel V) (hk : t.KeepsTimers t') :
    t'.InTime V life n :=
  ⟨h.toTimers.keeps hw hk, fun x hx => h.lt x (hk.live hx)⟩

/-- Only what is noted of the live connections matters, and of that when they were created. -/
theorem InTime.congr {life' : ℕ → Life} (h : t.InTime V life n)
    (hborn : ∀ x ∈ t.live, (life' x).born = (life x).born) : t.InTime V life' n := by
  refine ⟨⟨h.wheel, fun x hx => ?_, fun x hx => ?_, fun x hx => ?_⟩, fun x hx => ?_⟩ <;>
    rw [hborn x hx]
  · exact h.born_le x hx
  · exact h.le x hx
  · exact h.slot x hx
  · exact h.lt x hx

/-- The hand of a tick is on a slot that the tick has emptied. -/
theorem timerTick_slot (t : Tables) :
    (timerTick Tables.clock (fun t clock => { t with clock := clock })
      connectionTimeout t).clock.timer_table
        (wrapNext t.clock.total_clock_seconds t.clock.next_clock_second) = [] := by
  unfold timerTick
  dsimp only
  generalize wrapNext t.clock.total_clock_seconds t.clock.next_clock_second = next
  have hbody : ∀ (s : Tables) x, True → x ∈ s.clock.timer_table next →
      (connectionFree s x).clock.timer_table next = (s.clock.timer_table next).erase x :=
    fun s x _ _ => by
      rw [clock_connectionFree]
      rfl
  exact list_forEachSafe (fun _ _ _ _ => trivial) hbody trivial

/-- A tick moves the hand by one. -/
theorem timerTick_hand (t : Tables) :
    (timerTick Tables.clock (fun t clock => { t with clock := clock })
      connectionTimeout t).clock.next_clock_second
        = wrapNext t.clock.total_clock_seconds t.clock.next_clock_second := by
  refine timerTick_step (Q := fun s => s.clock.next_clock_second
    = wrapNext t.clock.total_clock_seconds t.clock.next_clock_second) (fun s cp hs _ => ?_) rfl
  rw [clock_connectionFree]
  exact hs

theorem InTime.timers_tick (h : t.InTime V life n) :
    (timerTick Tables.clock (fun t clock => { t with clock := clock })
      connectionTimeout t).Timers V life (n + 1) := by
  have hnext := wrapNext_eq_mod h.wheel.ok.wheel
  refine timerTick_step (Q := fun s => s.Timers V life (n + 1)) (fun s cp hs hcp => ?_)
    ⟨?_, fun x hx => ?_, fun x hx => ?_, fun x hx => ?_⟩
  · have hok := hs.wheel.ok
    have hlive : cp ∈ s.live := hok.mem_timed.mp (mem_linked.mpr ⟨_, hok.wheel, hcp⟩)
    exact hs.keeps ((stable_wheel V).free s cp hs.wheel hlive) (hok.keepsTimers_free cp)
  · exact (stable_wheel V).clock t _ h.wheel rfl rfl (wrapNext_lt h.wheel.ok.wheel)
  · exact (h.born_le x hx).trans (Nat.le_succ n)
  · exact h.lt x hx
  · have hlt := h.lt x hx
    have hahead : t.clock.next_clock_second + 1
          + ((life x).born + connectionTimeoutSeconds.toNat - (n + 1))
        = t.clock.next_clock_second
          + ((life x).born + connectionTimeoutSeconds.toNat - n) := by omega
    dsimp only
    rw [hnext, Nat.mod_add_mod, hahead]
    exact h.slot x hx

/-- **A tick** frees the connections whose time is over then. -/
theorem InTime.tick (h : t.InTime V life n) :
    (timerTick Tables.clock (fun t clock => { t with clock := clock })
      connectionTimeout t).InTime V life (n + 1) := by
  have htimers := h.timers_tick
  have hslot := timerTick_slot t
  rw [← timerTick_hand t] at hslot
  refine ⟨htimers, fun x hx => lt_of_le_of_ne (htimers.le x hx) (fun hover => ?_)⟩
  -- a timer whose time is over is in the slot of the hand
  have hx := htimers.slot x hx
  rw [← hover, Nat.sub_self, Nat.add_zero, Nat.mod_eq_of_lt htimers.wheel.ok.wheel, hslot] at hx
  exact List.not_mem_nil hx

/-- **An expiry**, of as many ticks. -/
theorem InTime.timer (h : t.InTime V life n) (now : ℕ) :
    (connectionTimerExpire t now).InTime V life (n + timerTicks t.clock now) := by
  refine timerExpire_counted Tables.clock (fun t clock => { t with clock := clock })
    connectionTimeout (P := fun n t => t.InTime V life n) (fun _ _ hs => hs.tick)
    (fun n s _ _ _ hs => ?_) h now
  exact hs.keeps ((stable_wheel V).clock s _ hs.wheel rfl rfl hs.wheel.ok.wheel)
    ⟨rfl, rfl, List.Subset.refl _, fun _ _ _ hi => hi, rfl⟩

/-- **A new connection has its whole time**, and the others have what they had. -/
theorem InTime.created (h : t.InTime V life n) {pkt : Packet} {vs cp : ℕ}
    (hV : ToVserver t pkt vs) (hc : Created t pkt vs cp t') (forwarded : List Forwarding) :
    t'.InTime V (Function.update life cp ⟨n, forwarded⟩) n := by
  have hclock : t'.clock = { t.clock with
      timer_table := bucketAdd t.clock.timer_table
        ((t.clock.next_clock_second + connectionTimeoutSeconds.toNat)
          % t.clock.total_clock_seconds) cp } := by
    have htotal : t.clock.total_clock_seconds = 300 := h.wheel.total
    rw [hc.eq]
    exact timerAdd_eq (htotal ▸ (by decide)) cp
  have hcases : ∀ x ∈ t'.live, x = cp ∨ (x ∈ t.live ∧ x ≠ cp) := fun x hx => by
    obtain hx | hx := (h.wheel.live_created hV hc x).mp hx
    · exact Or.inl hx
    · exact Or.inr ⟨hx, fun he => hc.fresh (h.wheel.ok.mem_live.mp (he ▸ hx))⟩
  refine ⟨⟨(stable_wheel V).created _ _ _ _ _ h.wheel hV hc, fun x hx => ?_, fun x hx => ?_,
    fun x hx => ?_⟩, fun x hx => ?_⟩ <;> obtain rfl | ⟨hx, hne⟩ := hcases x hx
  · rw [Function.update_self]
  · rw [Function.update_of_ne hne]
    exact h.born_le x hx
  · rw [Function.update_self]
    exact Nat.le_add_right _ _
  · rw [Function.update_of_ne hne]
    exact h.le x hx
  · rw [Function.update_self, hclock]
    dsimp only
    rw [Nat.add_sub_cancel_left]
    exact mem_bucketAdd_self _ _ _
  · rw [Function.update_of_ne hne, hclock]
    exact mem_bucketAdd_of_mem (h.slot x hx)
  · rw [Function.update_self]
    exact Nat.lt_add_of_pos_right (by decide)
  · rw [Function.update_of_ne hne]
    exact h.lt x hx

end Tables

/-! ## Every run of a process -/

/-- What a step makes of the creations and of the live connections: a connection that is live
after it was live before and created then, or the step created it. -/
structure Watched.Ages (w w' : Watched) : Prop where
  /-- The ticks. -/
  ticks : w.ticks ≤ w'.ticks
  /-- The history only grows. -/
  created : w.tables.created <+: w'.tables.created
  /-- The live connections, where the step created none. -/
  live : w'.tables.created = w.tables.created → ∀ x ∈ w'.tables.live,
    x ∈ w.tables.live ∧ (w'.life x).born = (w.life x).born

namespace Watched

variable {V : VserverTable} {w w' w'' : Watched}

theorem Ages.refl (w : Watched) : w.Ages w :=
  ⟨le_refl _, List.prefix_refl _, fun _ _ hx => ⟨hx, rfl⟩⟩

theorem Ages.trans (h : w.Ages w') (h' : w'.Ages w'') : w.Ages w'' := by
  refine ⟨h.ticks.trans h'.ticks, h.created.trans h'.created, fun heq x hx => ?_⟩
  -- the history between is as long as both
  have hmid : w'.tables.created = w.tables.created := by
    refine (h.created.eq_of_length_le ?_).symm
    rw [← heq]
    exact h'.created.length_le
  obtain ⟨hx', hborn'⟩ := h'.live (heq.trans hmid.symm) x hx
  obtain ⟨hx, hborn⟩ := h.live hmid x hx'
  exact ⟨hx, hborn'.trans hborn⟩

/-- Tables whose timers are kept, and a watch of the same births. -/
theorem Ages.of_keeps (hk : w.tables.KeepsTimers w'.tables) (hticks : w.ticks ≤ w'.ticks)
    (hborn : ∀ x ∈ w'.tables.live, (w'.life x).born = (w.life x).born) : w.Ages w' where
  ticks := hticks
  created := hk.created ▸ List.prefix_refl _
  live _ x hx := ⟨hk.live hx, hborn x hx⟩

end Watched

section Step

variable {V : VserverTable} {w w' : Watched}

/-- **Finding a connection for a packet** keeps every live connection in its time. -/
theorem Tables.InTime.find (h : w.tables.InTime V w.life w.ticks) {malloc : Option ℕ}
    (hm : w.tables.conn_mem_pool.MallocOk malloc) {pkt : Packet} (hproto : pkt.protocol_ip ≠ 0) :
    (processFindConnection malloc w.tables pkt).2.InTime V (w.note malloc pkt) w.ticks
      ∧ w.Ages ⟨(processFindConnection malloc w.tables pkt).2, w.ticks, w.note malloc pkt⟩ := by
  have hok := h.wheel.ok
  have hsearch := @searches_processFindConnection malloc w.tables hok pkt hproto
  have hspec := fun vs => connectionCreate_spec hok.mem hm hok.ranges pkt vs
  generalize hr : processFindConnection malloc w.tables pkt = r at hsearch
  obtain ⟨found, t'⟩ := r
  dsimp only at hsearch ⊢
  cases hsearch with
  | nothing hno =>
    rw [Watched.note_of_not hr hno]
    exact ⟨h, .refl w⟩
  | @notCreated vs _ hc =>
    have hn := hspec vs
    rw [hc] at hn
    have hkeeps := Tables.keepsTimers_notCreated hn
    rw [Watched.note_of_not hr (fun _ _ => by simp)]
    exact ⟨h.keeps ((Tables.stable_wheel V).notCreated _ _ h.wheel hn) hkeeps,
      .of_keeps hkeeps (le_refl _) (fun _ _ => rfl)⟩
  | @created vs cp _ hV hnone hc =>
    have hcr := hspec vs
    rw [hc] at hcr
    dsimp only at hcr
    have hnew : cp ∉ w.tables.live := fun hcp => hcr.fresh (hok.mem_live.mp hcp)
    have hlog : t'.created = w.tables.created ++ [⟨cp, pkt, vs⟩] := by rw [hcr.eq]
    rw [Watched.note_of_new hr hnew]
    refine ⟨h.created hV hcr _, le_refl _, ?_, fun heq => ?_⟩
    · dsimp only
      rw [hlog]
      exact List.prefix_append _ _
    · exact absurd (hlog.symm.trans heq) (by simp)
  | @found cp ic hlive hclient =>
    have hassigns := w.tables.assigns_setProtocol cp pkt.protocol_ip
    have hkeeps := hassigns.keepsTimers
    rw [Watched.note_of_live hr hlive]
    have hborn : ∀ (f : List Forwarding) x,
        (Function.update w.life cp { w.life cp with forwarded := f } x).born
          = (w.life x).born := fun f x => by
      by_cases hx : x = cp
      · rw [hx, Function.update_self]
      · rw [Function.update_of_ne hx]
    exact ⟨(h.keeps ((Tables.stable_wheel V).assigns _ _ h.wheel hassigns) hkeeps).congr
      (fun x _ => hborn _ x), .of_keeps hkeeps (le_refl _) (fun x _ => hborn _ x)⟩

/-- **Every step keeps every live connection in its time**, and ages it. -/
theorem Tables.InTime.step (h : w.tables.InTime V w.life w.ticks) {l : ProcessLabel}
    (hst : watchSystem.step w l w') : w'.tables.InTime V w'.life w'.ticks ∧ w.Ages w' := by
  cases l with
  | packet malloc pkt =>
    obtain ⟨⟨hp, hm, -⟩, rfl⟩ := hst
    unfold Watched.next mainProcessPackets
    dsimp only
    by_cases hip : packetIsIp pkt = true
    · rw [if_pos hip, if_pos hip, processIpPacket]
      have hfind := h.find hm (hp.protocol_ne_zero hip)
      obtain ⟨-, hlive⟩ := (Tables.stable_wheel V).find h.wheel hm pkt
      generalize processFindConnection malloc w.tables pkt = r at hfind hlive
      obtain ⟨found, t'⟩ := r
      cases found with
      | drop => exact hfind
      | none => exact hfind
      | connection cp is_client =>
        obtain ⟨hfind, hages⟩ := hfind
        have hkeeps := hfind.wheel.ok.keepsTimers_forward cp pkt is_client
        exact ⟨hfind.keeps ((Tables.stable_wheel V).forward hfind.wheel (hlive cp _ rfl) pkt _)
          hkeeps, hages.trans (.of_keeps hkeeps (le_refl _) (fun _ _ => rfl))⟩
    · rw [if_neg hip, if_neg hip]
      split
      · have harps := (arpHandler_spec w.tables pkt).1
        exact ⟨h.keeps ((Tables.stable_wheel V).arps _ _ h.wheel harps) harps.keepsTimers,
          .of_keeps harps.keepsTimers (le_refl _) (fun _ _ => rfl)⟩
      · exact ⟨h, .refl w⟩
  | timer now =>
    obtain ⟨-, rfl⟩ := hst
    have hcreated := created_connectionTimerExpire h.wheel.ok now
    exact ⟨h.timer now, Nat.le_add_right _ _, hcreated ▸ List.prefix_refl _,
      fun _ x hx => ⟨live_connectionTimerExpire_subset h.wheel.ok now hx, rfl⟩⟩

end Step

/-- In every run every live connection is in its time. -/
theorem inTime_of_reachable {w : Watched} (h : watchSystem.Reachable w) :
    w.tables.InTime w.tables.vservers w.life w.ticks := by
  obtain ⟨s, ls, ⟨hstart, -, -⟩, hrun⟩ := h
  have hnone : s.tables.live = [] := by
    obtain ⟨t₀, ht₀⟩ := hstart.conn
    rw [ht₀, Tables.live, connectionModuleInit, linked_nil]
  have hwheel : s.tables.Wheel s.tables.vservers := by
    refine ⟨hstart.ok, ?_, rfl⟩
    obtain ⟨now, hclock⟩ := hstart.clock
    rw [hclock]
    rfl
  have hno : ∀ {P : ℕ → Prop}, ∀ x ∈ s.tables.live, P x := fun x hx => by
    rw [hnone] at hx
    exact absurd hx List.not_mem_nil
  have hend := hrun.invariant (P := fun w => w.tables.InTime s.tables.vservers w.life w.ticks)
    (fun w l w' hw hst => (hw.step hst).1) ⟨⟨hwheel, hno, hno, hno⟩, hno⟩
  exact hend.wheel.vservers ▸ hend

/-- **A connection lives a minute at most.** In every run, whatever packets came, a live
connection was created fewer than `CONNECTION_TIMEOUT_SECONDS` ticks before, and its timer is in
the slot that the hand reaches when they are over. -/
theorem connection_lifetime {w : Watched} (h : watchSystem.Reachable w) {cp : ℕ}
    (hcp : cp ∈ w.tables.live) :
    (w.life cp).born ≤ w.ticks
      ∧ w.ticks < (w.life cp).born + connectionTimeoutSeconds.toNat
      ∧ cp ∈ w.tables.clock.timer_table ((w.tables.clock.next_clock_second
          + ((w.life cp).born + connectionTimeoutSeconds.toNat - w.ticks))
        % w.tables.clock.total_clock_seconds) :=
  have hin := inTime_of_reachable h
  ⟨hin.born_le cp hcp, hin.lt cp hcp, hin.slot cp hcp⟩

/-- The connection of the first segment of `busyFirst`, thirty ticks later. -/
theorem connection_lifetime_busyFirst :
    0x1fff80 ∈ busyFirst.tables.live
      ∧ busyFirst.ticks < (busyFirst.life 0x1fff80).born + connectionTimeoutSeconds.toNat := by
  have hlive : 0x1fff80 ∈ busyFirst.tables.live := by decide +kernel
  exact ⟨hlive, (connection_lifetime
    ⟨busyStart, _, ⟨started_twoServers, rfl, fun _ => rfl⟩, run_busy.1⟩ hlive).2.1⟩

/-- **A process that no new client comes to gives everything back.** In every run, once
`CONNECTION_TIMEOUT_SECONDS` ticks have passed in which no connection was created, whatever
packets came in between, no connection is left: not in a hash table, not in the wheel, and no
structure of the pool is handed out. -/
theorem idle_process_empties {w w' : Watched} (h : watchSystem.Reachable w)
    {ls : List ProcessLabel} (hrun : watchSystem.Run w ls w')
    (hidle : w'.tables.created = w.tables.created)
    (hticks : w.ticks + connectionTimeoutSeconds.toNat ≤ w'.ticks) :
    w'.tables.live = [] ∧ w'.tables.liveSelf = [] ∧ w'.tables.timed = []
      ∧ w'.tables.conn_mem_pool.outstanding = [] := by
  have hin := inTime_of_reachable h
  obtain ⟨hin', hages⟩ := hrun.invariant
    (P := fun u => u.tables.InTime w.tables.vservers u.life u.ticks ∧ w.Ages u)
    (fun u l u' hu hst => ⟨(hu.1.step hst).1, hu.2.trans (hu.1.step hst).2⟩) ⟨hin, .refl w⟩
  have hok := hin'.wheel.ok
  have hlive : w'.tables.live = [] := by
    refine List.eq_nil_iff_forall_not_mem.mpr (fun x hx => ?_)
    -- a connection that is left was created before the minute began
    obtain ⟨hx', hborn⟩ := hages.live hidle x hx
    have hlt := hin'.lt x hx
    have hle := hin.born_le x hx'
    omega
  have hout : w'.tables.conn_mem_pool.outstanding = [] := by
    have hperm := hok.client
    rw [hlive] at hperm
    exact hperm.nil_eq.symm
  refine ⟨hlive, List.eq_nil_iff_forall_not_mem.mpr (fun x hx => ?_), ?_, hout⟩
  · rw [hok.mem_liveSelf, hlive] at hx
    exact List.not_mem_nil hx.1
  · have hperm := hok.timer
    rw [hout] at hperm
    exact hperm.eq_nil

/-- A minute after `busyFirst` its connection is gone. -/
theorem idle_process_empties_busyFirst :
    0x1fff80 ∈ busyFirst.tables.live ∧ (busyFirst.next (.timer 234001)).tables.live = [] := by
  have hreach : watchSystem.Reachable busyFirst :=
    ⟨busyStart, _, ⟨started_twoServers, rfl, fun _ => rfl⟩, run_busy.1⟩
  have hrun : watchSystem.Run busyFirst [.timer 234001] (busyFirst.next (.timer 234001)) :=
    System.Run.single ⟨⟨by decide +kernel, rfl⟩, rfl⟩
  have hok := (inTime_of_reachable hreach).wheel.ok
  exact ⟨by decide +kernel, (idle_process_empties hreach hrun
    (created_connectionTimerExpire hok 234001) (by decide +kernel)).1⟩
