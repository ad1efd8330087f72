import Ustack.Buckets
import Ustack.Cyclic

/-!
# The timer wheel

`src/timer.c`: one slot a second, a hand that moves one slot for each second
that has passed, and at each slot a call of the handler of every timer there. The
handler is expected to take its timer out, which it does while the slot is being
walked.

The clock is the time stamp counter in units of 2^20 cycles. Readings do not go
back and do not overflow within the life of a machine, as the file says, so they
are numbers.
-/

/-- `DEFAULT_CPU_FREQUENCY_MHZ`. -/
def defaultCpuFrequencyMhz : ℕ := 2600

/-- `DEFAULT_SECONDS`. -/
def defaultSeconds : ℤ := 60 * 5

/-- `struct clock`. -/
structure Clock where
  /-- The units in a second. -/
  cpu_frequency : ℕ
  /-- The last reading. -/
  now : ℕ
  /-- The units left over from the last expiry. -/
  fill : ℕ
  /-- The reading of the last expiry. -/
  last_expire : ℕ
  /-- The number of slots. -/
  total_clock_seconds : ℕ
  /-- The slot of the hand. -/
  next_clock_second : ℕ
  /-- The timers of each slot. -/
  timer_table : ℕ → List ℕ

/-- `timer_module_init`, at a reading of the clock. -/
def timerModuleInit (t : ℕ) (seconds : ℤ) : Clock where
  cpu_frequency := defaultCpuFrequencyMhz
  now := t
  fill := 0
  last_expire := t
  total_clock_seconds := (if seconds < 0 then defaultSeconds else seconds).toNat
  next_clock_second := 0
  timer_table := fun _ => []

/-- `timer_add`. -/
def timerAdd (clock : Clock) (t : ℕ) (seconds : ℤ) : Clock :=
  let seconds := if (clock.total_clock_seconds : ℤ) < seconds
    then (clock.total_clock_seconds : ℤ) else seconds
  let seconds := if seconds < 0 then 1 else seconds
  let id := (clock.next_clock_second + seconds.toNat) % clock.total_clock_seconds
  { clock with timer_table := bucketAdd clock.timer_table id t }

/-- `timer_del`: a timer that is not linked stays as it is. -/
def timerDel (clock : Clock) (t : ℕ) : Clock :=
  { clock with timer_table := bucketDel clock.timer_table t }

section Expire

variable {σ : Type*} (clockOf : σ → Clock) (setClock : σ → Clock → σ)
  (handler : σ → ℕ → σ)

/-- One turn of the loop of `timer_expire`: move the hand, and call the handlers
of its slot. -/
def timerTick (s : σ) : σ :=
  let clock := clockOf s
  let next := wrapNext clock.total_clock_seconds clock.next_clock_second
  forEachSafe (fun s => (clockOf s).timer_table next) handler
    (setClock s { clock with next_clock_second := next })

/-- The loop of `timer_expire`; every turn takes a second off `elapse`. -/
def timerExpireLoop (cpu_frequency : ℕ) : ℕ → σ → ℕ → σ × ℕ
  | 0, s, elapse => (s, elapse)
  | fuel + 1, s, elapse =>
    if cpu_frequency < elapse then
      timerExpireLoop cpu_frequency fuel (timerTick clockOf setClock handler s)
        (elapse - cpu_frequency)
    else (s, elapse)

/-- `timer_expire`, at a reading of the clock. -/
def timerExpire (s : σ) (now : ℕ) : σ :=
  let clock := clockOf s
  let elapse := now - clock.last_expire + clock.fill
  let flag := clock.cpu_frequency < elapse
  let (s, elapse) := timerExpireLoop clockOf setClock handler clock.cpu_frequency
    elapse s elapse
  let clock := clockOf s
  let clock := if flag then { clock with fill := elapse, last_expire := now } else clock
  setClock s { clock with now := now }

/-- The turns the loop takes. -/
def timerExpireTurns (cpu_frequency : ℕ) : ℕ → ℕ → ℕ
  | 0, _ => 0
  | fuel + 1, elapse =>
    if cpu_frequency < elapse then
      timerExpireTurns cpu_frequency fuel (elapse - cpu_frequency) + 1
    else 0

/-- **The turns of the loop**: it leaves between nothing and a second over. -/
theorem timerExpireTurns_eq {cpu_frequency : ℕ} (hf : 0 < cpu_frequency) {fuel elapse : ℕ}
    (h : elapse ≤ fuel) :
    timerExpireTurns cpu_frequency fuel elapse = (elapse - 1) / cpu_frequency := by
  induction fuel generalizing elapse with
  | zero =>
    rw [Nat.le_zero.mp h]
    exact (Nat.zero_div _).symm
  | succ fuel ih =>
    rw [timerExpireTurns]
    split
    · rename_i hlt
      rw [ih (by omega), Nat.sub_right_comm, ← Nat.div_eq_sub_div hf (by omega)]
    · rename_i hle
      exact (Nat.div_eq_of_lt (by omega)).symm

/-- Every turn takes a second off. -/
theorem timerExpireLoop_snd (cpu_frequency fuel : ℕ) (s : σ) (elapse : ℕ) :
    (timerExpireLoop clockOf setClock handler cpu_frequency fuel s elapse).2
      = elapse - timerExpireTurns cpu_frequency fuel elapse * cpu_frequency := by
  induction fuel generalizing s elapse with
  | zero => rw [timerExpireLoop, timerExpireTurns, Nat.zero_mul, Nat.sub_zero]
  | succ fuel ih =>
    rw [timerExpireLoop, timerExpireTurns]
    split
    · rw [ih, Nat.add_mul, Nat.one_mul, Nat.sub_sub, Nat.add_comm cpu_frequency]
    · rw [Nat.zero_mul, Nat.sub_zero]

/-- **The ticks of an expiry**: the slots the hand moves, at a reading of the clock. -/
def timerTicks (clock : Clock) (now : ℕ) : ℕ :=
  let elapse := now - clock.last_expire + clock.fill
  timerExpireTurns clock.cpu_frequency elapse elapse

/-- What holds of a state and a number, and of the next number after every turn, holds after
the loop of the number of its turns. -/
theorem timerExpireLoop_counted {P : ℕ → σ → Prop}
    (hP : ∀ n s, P n s → P (n + 1) (timerTick clockOf setClock handler s))
    (cpu_frequency fuel : ℕ) {n : ℕ} {s : σ} (hs : P n s) (elapse : ℕ) :
    P (n + timerExpireTurns cpu_frequency fuel elapse)
      (timerExpireLoop clockOf setClock handler cpu_frequency fuel s elapse).1 := by
  induction fuel generalizing n s elapse with
  | zero => exact hs
  | succ fuel ih =>
    rw [timerExpireLoop, timerExpireTurns]
    split
    · rw [Nat.add_comm _ 1, ← Nat.add_assoc]
      exact ih (hP n s hs) _
    · exact hs

/-- **An expiry of so many ticks.** -/
theorem timerExpire_counted {P : ℕ → σ → Prop}
    (hP : ∀ n s, P n s → P (n + 1) (timerTick clockOf setClock handler s))
    (hset : ∀ n s fill last_expire now, P n s →
      P n (setClock s { clockOf s with
        fill := fill, last_expire := last_expire, now := now }))
    {n : ℕ} {s : σ} (hs : P n s) (now : ℕ) :
    P (n + timerTicks (clockOf s) now) (timerExpire clockOf setClock handler s now) := by
  unfold timerExpire timerTicks
  dsimp only
  have hloop := timerExpireLoop_counted clockOf setClock handler hP
    (clockOf s).cpu_frequency (now - (clockOf s).last_expire + (clockOf s).fill) hs
    (now - (clockOf s).last_expire + (clockOf s).fill)
  split
  · exact hset _ _ _ _ _ hloop
  · exact hset _ _ (clockOf _).fill (clockOf _).last_expire _ hloop

/-- **What the hand and the handlers keep, an expiry keeps.** -/
theorem timerExpire_keeps {P : σ → Prop}
    (hP : ∀ s, P s → P (timerTick clockOf setClock handler s))
    (hset : ∀ s fill last_expire now, P s →
      P (setClock s { clockOf s with
        fill := fill, last_expire := last_expire, now := now }))
    {s : σ} (hs : P s) (now : ℕ) : P (timerExpire clockOf setClock handler s now) :=
  timerExpire_counted clockOf setClock handler (P := fun _ => P) (fun _ => hP) (fun _ => hset)
    (n := 0) hs now

end Expire

/-- A timer no more than a turn ahead goes into the slot so many ahead of the hand. -/
theorem timerAdd_eq {clock : Clock} {seconds : ℕ} (h : seconds ≤ clock.total_clock_seconds)
    (t : ℕ) : timerAdd clock t seconds = { clock with
      timer_table := bucketAdd clock.timer_table
        ((clock.next_clock_second + seconds) % clock.total_clock_seconds) t } := by
  unfold timerAdd
  dsimp only
  rw [if_neg (not_lt.mpr (Int.ofNat_le.mpr h)), if_neg (not_lt.mpr (Int.natCast_nonneg _)),
    Int.toNat_natCast]

/-- A new timer goes into one slot, whatever the seconds. -/
theorem exists_timerAdd_eq {clock : Clock} (h : 0 < clock.total_clock_seconds) (t : ℕ)
    (seconds : ℤ) : ∃ i < clock.total_clock_seconds,
      timerAdd clock t seconds = { clock with
        timer_table := bucketAdd clock.timer_table i t } :=
  ⟨_, Nat.mod_lt _ h, rfl⟩

/-- A new timer is in a slot of the wheel. -/
theorem linked_timerAdd {clock : Clock} (h : 0 < clock.total_clock_seconds) (t : ℕ)
    (seconds : ℤ) :
    (linked clock.total_clock_seconds (timerAdd clock t seconds).timer_table).Perm
      (t :: linked clock.total_clock_seconds clock.timer_table) :=
  linked_bucketAdd (Nat.mod_lt _ h) _ _
