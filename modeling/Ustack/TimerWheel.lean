import Ustack.Containers
import Ustack.Runs
import Ustack.Timer

/-!
# What the timer wheel does over time

The wheel of `src/timer.c` under any sequence of calls: timers are added and deleted, and
`timer_expire` is called at whatever readings the clock has then.

The wheel belongs to a module (`WheelOwner`) whose handlers take out their own timer and
touch nothing else of it. `Wheel` keeps, beside the state of the owner, the number of ticks
so far and which timer ran at which tick. Two facts hold at every moment. The ticks and the
time left over add up to the time since the start, so no part of a second is lost or counted
twice however the calls fall (`Wheel.Timely`). And a timer that waits is in the slot of the
tick it is due at, which is at most one turn ahead (`Wheel.Waits`), so the hand comes to it
at that tick and no earlier.
-/

variable {σ τ : Type*}

/-- **The module a wheel belongs to**: a state with the clock in it, and handlers that
remove only their own timer. -/
structure WheelOwner (σ : Type*) where
  /-- The clock in a state. -/
  clockOf : σ → Clock
  /-- Replace the clock. -/
  setClock : σ → Clock → σ
  /-- The handler of a timer. -/
  handler : σ → ℕ → σ
  /-- What was set is read back. -/
  clockOf_setClock : ∀ s clock, clockOf (setClock s clock) = clock
  /-- A handler deletes its own timer. -/
  clockOf_handler : ∀ s t, clockOf (handler s t) = timerDel (clockOf s) t

/-- **A wheel with its history.** -/
structure Wheel (σ : Type*) where
  /-- The state of the owner. -/
  state : σ
  /-- The ticks so far. -/
  ticks : ℕ
  /-- The handlers run so far, each with the tick it ran at. -/
  fired : List (ℕ × ℕ)

namespace Wheel

/-- The ticks a timer ran at. -/
def runs (w : Wheel σ) (t : ℕ) : List ℕ :=
  (w.fired.filter (fun f => f.2 = t)).map Prod.fst

variable (O : WheelOwner σ)

/-- The clock of the owner. -/
def clock (w : Wheel σ) : Clock := O.clockOf w.state

theorem clock_state (w : Wheel σ) (s : σ) :
    clock O { w with state := s } = O.clockOf s := rfl

/-- The owner's clock is set at every tick, so setting it counts one. -/
def setClock (w : Wheel σ) (clock : Clock) : Wheel σ :=
  { w with state := O.setClock w.state clock, ticks := w.ticks + 1 }

/-- The owner's handler, written down. -/
def handler (w : Wheel σ) (t : ℕ) : Wheel σ :=
  { w with state := O.handler w.state t, fired := w.fired ++ [(w.ticks, t)] }

/-- One turn of the loop of `timer_expire`. -/
def tick (w : Wheel σ) : Wheel σ := timerTick (clock O) (setClock O) (handler O) w

/-- `timer_expire`. It sets the clock once more at its end, which is no tick. -/
def expire (w : Wheel σ) (now : ℕ) : Wheel σ :=
  let w := timerExpire (clock O) (setClock O) (handler O) w now
  { w with ticks := w.ticks - 1 }

end Wheel

/-! ## The history does not matter

What a walk, a turn and an expiry do to the state does not depend on what is kept beside
it: a map between two kinds of state that keeps the clock and the handlers keeps them. -/

section Map

variable {clockOf : σ → Clock} {setClock : σ → Clock → σ} {handler : σ → ℕ → σ}
  {clockOf' : τ → Clock} {setClock' : τ → Clock → τ} {handler' : τ → ℕ → τ} {f : σ → τ}

theorem map_forEachSafe {α : Type*} [DecidableEq α] {list : σ → List α} {list' : τ → List α}
    {body : σ → α → σ} {body' : τ → α → τ} (hlist : ∀ s, list' (f s) = list s)
    (hbody : ∀ s x, f (body s x) = body' (f s) x) (s : σ) :
    f (forEachSafe list body s) = forEachSafe list' body' (f s) := by
  have key : ∀ (fuel : ℕ) (s : σ) (pos n : Option α),
      f (forEachSafeLoop list body fuel s pos n)
        = forEachSafeLoop list' body' fuel (f s) pos n := by
    intro fuel
    induction fuel with
    | zero => exact fun _ _ _ => rfl
    | succ fuel ih =>
      intro s pos n
      cases pos with
      | none => rfl
      | some x =>
        rw [forEachSafeLoop, forEachSafeLoop, ih, hbody, ← hlist (body s x), hbody]
  rw [forEachSafe, forEachSafe, key, hlist]

theorem map_timerTick (hclock : ∀ s, clockOf' (f s) = clockOf s)
    (hset : ∀ s clock, f (setClock s clock) = setClock' (f s) clock)
    (hhandler : ∀ s t, f (handler s t) = handler' (f s) t) (s : σ) :
    f (timerTick clockOf setClock handler s)
      = timerTick clockOf' setClock' handler' (f s) := by
  rw [timerTick, timerTick, hclock, ← hset]
  exact map_forEachSafe (fun s => by rw [hclock]) hhandler _

theorem map_timerExpire (hclock : ∀ s, clockOf' (f s) = clockOf s)
    (hset : ∀ s clock, f (setClock s clock) = setClock' (f s) clock)
    (hhandler : ∀ s t, f (handler s t) = handler' (f s) t) (s : σ) (now : ℕ) :
    f (timerExpire clockOf setClock handler s now)
      = timerExpire clockOf' setClock' handler' (f s) now := by
  have key : ∀ (cpu_frequency fuel : ℕ) (s : σ) (elapse : ℕ),
      Prod.map f id (timerExpireLoop clockOf setClock handler cpu_frequency fuel s elapse)
        = timerExpireLoop clockOf' setClock' handler' cpu_frequency fuel (f s) elapse := by
    intro cpu_frequency fuel
    induction fuel with
    | zero => exact fun _ _ => rfl
    | succ fuel ih =>
      intro s elapse
      rw [timerExpireLoop, timerExpireLoop]
      split
      · rw [ih, map_timerTick hclock hset hhandler]
      · rfl
  rw [timerExpire, timerExpire]
  dsimp only
  rw [hset, hclock, ← key]
  simp only [Prod.map_fst, Prod.map_snd, id, hclock]

/-- **The wheel with its history is the owner's `timer_expire`.** -/
theorem Wheel.state_expire (O : WheelOwner σ) (w : Wheel σ) (now : ℕ) :
    (w.expire O now).state = timerExpire O.clockOf O.setClock O.handler w.state now :=
  map_timerExpire (f := Wheel.state) (fun _ => rfl) (fun _ _ => rfl) (fun _ _ => rfl) w now

end Map

/-! ## A tick -/

namespace Wheel

section Tick

variable {O : WheelOwner σ} {w : Wheel σ} {size n t : ℕ}

/-- **The slots of a wheel** after `n` ticks: the hand has moved `n` slots, and a timer is
in one place at most. -/
structure Slots (O : WheelOwner σ) (size n : ℕ) (w : Wheel σ) : Prop where
  /-- There is a slot. -/
  size_pos : 0 < size
  /-- The number of slots. -/
  total : (w.clock O).total_clock_seconds = size
  /-- The hand. -/
  hand : (w.clock O).next_clock_second = n % size
  /-- No timer is linked twice. -/
  nodup : (linked size (w.clock O).timer_table).Nodup
  /-- There are no other slots. -/
  beyond : ∀ i, size ≤ i → (w.clock O).timer_table i = []

theorem clock_setClock (w : Wheel σ) (c : Clock) : (w.setClock O c).clock O = c :=
  O.clockOf_setClock w.state c

theorem clock_handler (w : Wheel σ) (t : ℕ) :
    (w.handler O t).clock O = timerDel (w.clock O) t := O.clockOf_handler w.state t

/-- The handlers of a list of timers, one after the other. -/
theorem foldl_handler (l : List ℕ) (w : Wheel σ) :
    (l.foldl (handler O) w).ticks = w.ticks
      ∧ (l.foldl (handler O) w).fired = w.fired ++ l.map (fun t => (w.ticks, t))
      ∧ (l.foldl (handler O) w).clock O = { w.clock O with
          timer_table := fun i => ((w.clock O).timer_table i).diff l } := by
  induction l generalizing w with
  | nil => exact ⟨rfl, (List.append_nil _).symm, rfl⟩
  | cons t l ih =>
    obtain ⟨hticks, hfired, hclock⟩ := ih (w.handler O t)
    rw [List.foldl_cons]
    refine ⟨hticks, ?_, ?_⟩
    · rw [hfired, List.map_cons]
      exact List.append_assoc _ _ _
    · rw [hclock, clock_handler]
      refine congrArg (fun table => { w.clock O with timer_table := table }) (funext fun i => ?_)
      rw [List.diff_cons]
      rfl

/-- Taking the timers of one slot out of all of them empties that slot only. -/
theorem Slots.diff_slot (h : Slots O size n w) {slot : ℕ} (hslot : slot < size) :
    (fun i => ((w.clock O).timer_table i).diff ((w.clock O).timer_table slot))
      = Function.update (w.clock O).timer_table slot [] := by
  have hnodup : ∀ i, ((w.clock O).timer_table i).Nodup := fun i => by
    by_cases hi : i < size
    · exact (List.nodup_flatMap.mp h.nodup).1 i (List.mem_range.mpr hi)
    · rw [h.beyond i (not_lt.mp hi)]
      exact List.nodup_nil
  funext i
  rw [(hnodup i).sdiff_eq_filter]
  by_cases hi : i = slot
  · rw [hi, Function.update_self]
    exact List.filter_eq_nil_iff.mpr (fun a ha => by simpa using ha)
  · rw [Function.update_of_ne hi]
    refine List.filter_eq_self.mpr (fun a ha => decide_eq_true (fun hmem => hi ?_))
    by_cases hlt : i < size
    · exact eq_of_mem_linked h.nodup hlt hslot ha hmem
    · rw [h.beyond i (not_lt.mp hlt)] at ha
      exact absurd ha List.not_mem_nil

/-- **A tick** moves the hand and runs the timers of its slot, each once, which empties the
slot. Nothing else changes. -/
theorem Slots.tick_eq (h : Slots O size w.ticks w) :
    (w.tick O).ticks = w.ticks + 1
      ∧ (w.tick O).fired = w.fired
        ++ ((w.clock O).timer_table ((w.ticks + 1) % size)).map (fun t => (w.ticks + 1, t))
      ∧ (w.tick O).clock O = { w.clock O with
          next_clock_second := (w.ticks + 1) % size
          timer_table := Function.update (w.clock O).timer_table
            ((w.ticks + 1) % size) [] } := by
  have hhand : (w.clock O).next_clock_second < size := h.hand ▸ Nat.mod_lt _ h.size_pos
  have hnext : wrapNext (w.clock O).total_clock_seconds (w.clock O).next_clock_second
      = (w.ticks + 1) % size := by
    rw [h.total, wrapNext_eq_mod hhand, h.hand, Nat.mod_add_mod]
  have hslot := Nat.mod_lt (w.ticks + 1) h.size_pos
  rw [tick, timerTick, hnext]
  rw [(forEachSafe_eq_foldl (P := fun _ => True) (fun _ _ _ _ => trivial)
    (fun s t _ _ => by rw [clock_handler]; rfl) trivial).1, clock_setClock]
  obtain ⟨hticks, hfired, hclock⟩ := foldl_handler (O := O)
    ((w.clock O).timer_table ((w.ticks + 1) % size))
    (w.setClock O { w.clock O with next_clock_second := (w.ticks + 1) % size })
  refine ⟨hticks, hfired, ?_⟩
  rw [hclock, clock_setClock]
  exact congrArg (fun table => { w.clock O with
    next_clock_second := (w.ticks + 1) % size, timer_table := table }) (h.diff_slot hslot)

/-- A tick keeps the slots. -/
theorem Slots.tick (h : Slots O size w.ticks w) : Slots O size (w.ticks + 1) (w.tick O) := by
  obtain ⟨-, -, hclock⟩ := h.tick_eq
  have htable : ∀ i, (((w.tick O).clock O).timer_table i).Sublist
      ((w.clock O).timer_table i) := fun i => by
    rw [hclock]
    show (Function.update (w.clock O).timer_table ((w.ticks + 1) % size) [] i).Sublist _
    by_cases hi : i = (w.ticks + 1) % size
    · rw [hi, Function.update_self]
      exact List.nil_sublist _
    · rw [Function.update_of_ne hi]
  refine ⟨h.size_pos, ?_, ?_, ?_, fun i hi => ?_⟩
  · rw [hclock]
    exact h.total
  · rw [hclock]
  · exact h.nodup.sublist (List.Sublist.flatMap_right _ (fun i _ => htable i))
  · have hsub := htable i
    rw [h.beyond i hi] at hsub
    exact List.eq_nil_of_sublist_nil hsub

/-- A tick changes nothing of the clock but the hand and the slots. -/
theorem Slots.tick_rest (h : Slots O size w.ticks w) :
    ((w.tick O).clock O).cpu_frequency = (w.clock O).cpu_frequency
      ∧ ((w.tick O).clock O).fill = (w.clock O).fill
      ∧ ((w.tick O).clock O).last_expire = (w.clock O).last_expire := by
  obtain ⟨-, -, hclock⟩ := h.tick_eq
  rw [hclock]
  exact ⟨rfl, rfl, rfl⟩

end Tick

/-! ## A timer that waits, and one that does not -/

/-- A timer that is in no slot, and the ticks it ran at. -/
structure Idle (O : WheelOwner σ) (t : ℕ) (runs : List ℕ) (w : Wheel σ) : Prop where
  /-- It is not linked. -/
  unlinked : ∀ i, t ∉ (w.clock O).timer_table i
  /-- The ticks it ran at. -/
  runs_eq : w.runs t = runs

/-- **A timer that waits** after `n` ticks: it is in the slot of the tick it is due at,
which is still to come and at most a turn ahead. -/
structure Waits (O : WheelOwner σ) (size t due : ℕ) (runs : List ℕ) (n : ℕ)
    (w : Wheel σ) : Prop where
  /-- The tick is still to come. -/
  before : n < due
  /-- It is at most a turn ahead. -/
  ahead : due ≤ n + size
  /-- The timer is in its slot. -/
  slot : t ∈ (w.clock O).timer_table (due % size)
  /-- The ticks it ran at before. -/
  runs_eq : w.runs t = runs

/-- **A timer due at a tick**: it waits for it, or it ran then and is idle since. -/
def Tracks (O : WheelOwner σ) (size t due : ℕ) (runs : List ℕ) (n : ℕ) (w : Wheel σ) : Prop :=
  Waits O size t due runs n w ∨ (due ≤ n ∧ Idle O t (runs ++ [due]) w)

section Timers

variable {O : WheelOwner σ} {w w' : Wheel σ} {size n t due : ℕ} {runs : List ℕ}

/-- A timer in no slot of the wheel is in none. -/
theorem Slots.unlinked (h : Slots O size n w) (ht : t ∉ linked size (w.clock O).timer_table)
    (i : ℕ) : t ∉ (w.clock O).timer_table i := fun hmem => by
  by_cases hi : i < size
  · exact ht (mem_linked.mpr ⟨i, hi, hmem⟩)
  · rw [h.beyond i (not_lt.mp hi)] at hmem
    exact absurd hmem List.not_mem_nil

/-- Which timers a tick runs. -/
theorem Slots.runs_tick (h : Slots O size w.ticks w) (t : ℕ) :
    (w.tick O).runs t = w.runs t
      ++ if t ∈ (w.clock O).timer_table ((w.ticks + 1) % size) then [w.ticks + 1] else [] := by
  obtain ⟨-, hfired, -⟩ := h.tick_eq
  have hnodup := (List.nodup_flatMap.mp h.nodup).1 _
    (List.mem_range.mpr (Nat.mod_lt (w.ticks + 1) h.size_pos))
  rw [Wheel.runs, hfired, List.filter_append, List.map_append, ← Wheel.runs]
  refine congrArg (w.runs t ++ ·) ?_
  rw [List.filter_map, List.map_map]
  show List.map (fun _ => w.ticks + 1) (List.filter (fun x => decide (x = t)) _) = _
  rw [List.map_const', ← List.countP_eq_length_filter]
  show List.replicate (List.count t _) _ = _
  by_cases hmem : t ∈ (w.clock O).timer_table ((w.ticks + 1) % size)
  · rw [if_pos hmem, List.count_eq_one_of_mem hnodup hmem]
    rfl
  · rw [if_neg hmem, List.count_eq_zero_of_not_mem hmem]
    rfl

/-- A slot after a tick. -/
theorem Slots.mem_tick (h : Slots O size w.ticks w) {i : ℕ} :
    t ∈ ((w.tick O).clock O).timer_table i
      ↔ i ≠ (w.ticks + 1) % size ∧ t ∈ (w.clock O).timer_table i := by
  obtain ⟨-, -, hclock⟩ := h.tick_eq
  rw [hclock]
  show t ∈ Function.update (w.clock O).timer_table ((w.ticks + 1) % size) [] i ↔ _
  by_cases hi : i = (w.ticks + 1) % size
  · rw [hi, Function.update_self]
    simp
  · rw [Function.update_of_ne hi]
    exact (and_iff_right hi).symm

/-- An idle timer does not run. -/
theorem Idle.tick (hs : Slots O size w.ticks w) (h : Idle O t runs w) :
    Idle O t runs (w.tick O) where
  unlinked i hmem := h.unlinked i (hs.mem_tick.mp hmem).2
  runs_eq := by
    rw [hs.runs_tick, if_neg (h.unlinked _), List.append_nil, h.runs_eq]

/-- **A waiting timer runs at its tick and at no other.** -/
theorem Tracks.tick (hs : Slots O size w.ticks w) (h : Tracks O size t due runs w.ticks w) :
    Tracks O size t due runs (w.ticks + 1) (w.tick O) := by
  rcases h with h | ⟨hdue, h⟩
  · have hbefore := h.before
    have hahead := h.ahead
    by_cases hnow : due = w.ticks + 1
    · refine Or.inr ⟨hnow.le, fun i hmem => ?_, ?_⟩
      · obtain ⟨hne, hi⟩ := hs.mem_tick.mp hmem
        by_cases hlt : i < size
        · have heq := eq_of_mem_linked hs.nodup hlt (Nat.mod_lt due hs.size_pos) hi h.slot
          exact hne (hnow ▸ heq)
        · rw [hs.beyond i (not_lt.mp hlt)] at hi
          exact absurd hi List.not_mem_nil
      · rw [hs.runs_tick, ← hnow, if_pos h.slot, h.runs_eq]
    · have hslot : due % size ≠ (w.ticks + 1) % size := fun he => by
        -- within one turn the slots are different
        obtain ⟨k, hk⟩ : ∃ k, due = w.ticks + 1 + k := ⟨due - (w.ticks + 1), by omega⟩
        rw [hk] at he
        have hzero := add_mod_inj (i := k) (j := 0) (by omega) hs.size_pos he
        omega
      refine Or.inl ⟨by omega, by omega, hs.mem_tick.mpr ⟨hslot, h.slot⟩, ?_⟩
      have hnot : t ∉ (w.clock O).timer_table ((w.ticks + 1) % size) := fun hmem =>
        hslot (eq_of_mem_linked hs.nodup (Nat.mod_lt _ hs.size_pos) (Nat.mod_lt _ hs.size_pos)
          h.slot hmem)
      rw [hs.runs_tick, if_neg hnot, List.append_nil, h.runs_eq]
  · exact Or.inr ⟨hdue.trans (Nat.le_succ _), h.tick hs⟩

theorem Idle.congr (hfired : w'.fired = w.fired)
    (htable : (w'.clock O).timer_table = (w.clock O).timer_table) (h : Idle O t runs w) :
    Idle O t runs w' where
  unlinked := by rw [htable]; exact h.unlinked
  runs_eq := by rw [Wheel.runs, hfired]; exact h.runs_eq

theorem Tracks.congr (hfired : w'.fired = w.fired)
    (htable : (w'.clock O).timer_table = (w.clock O).timer_table)
    (h : Tracks O size t due runs n w) : Tracks O size t due runs n w' := by
  rcases h with h | ⟨hdue, h⟩
  · refine Or.inl ⟨h.before, h.ahead, by rw [htable]; exact h.slot, ?_⟩
    rw [Wheel.runs, hfired]
    exact h.runs_eq
  · exact Or.inr ⟨hdue, h.congr hfired htable⟩

end Timers

end Wheel

/-! ## An expiry -/

namespace Wheel

section Expire

variable {O : WheelOwner σ} {w w' : Wheel σ} {size n : ℕ}

/-- The wheel after the turns of a loop. -/
def turned (O : WheelOwner σ) (w : Wheel σ) (cpu_frequency elapse : ℕ) : Wheel σ :=
  (timerExpireLoop (clock O) (setClock O) (handler O) cpu_frequency elapse w elapse).1

/-- **What every tick keeps, the loop keeps**, and it ticks once a turn. -/
theorem turned_keeps {X : ℕ → Wheel σ → Prop}
    (htick : ∀ w, Slots O size w.ticks w → X w.ticks w → X (w.ticks + 1) (w.tick O))
    (hs : Slots O size w.ticks w) (hx : X w.ticks w) (cpu_frequency elapse : ℕ) :
    (turned O w cpu_frequency elapse).ticks
        = w.ticks + timerExpireTurns cpu_frequency elapse elapse
      ∧ Slots O size (turned O w cpu_frequency elapse).ticks (turned O w cpu_frequency elapse)
      ∧ X (turned O w cpu_frequency elapse).ticks (turned O w cpu_frequency elapse) := by
  have hloop := timerExpireLoop_counted (clock O) (setClock O) (handler O)
    (P := fun n w => w.ticks = n ∧ Slots O size n w ∧ X n w)
    (fun n w ⟨hn, hs, hx⟩ => by
      subst hn
      exact ⟨hs.tick_eq.1, hs.tick, htick w hs hx⟩)
    cpu_frequency elapse ⟨rfl, hs, hx⟩ elapse
  obtain ⟨hticks, hslots, hkept⟩ := hloop
  refine ⟨hticks, ?_, ?_⟩
  · rw [← hticks] at hslots
    exact hslots
  · rw [← hticks] at hkept
    exact hkept

/-- The time that counts for an expiry. -/
def elapse (O : WheelOwner σ) (w : Wheel σ) (now : ℕ) : ℕ :=
  now - (w.clock O).last_expire + (w.clock O).fill

/-- **An expiry** turns the wheel and then writes down what is left over. -/
theorem expire_eq (w : Wheel σ) (now : ℕ) :
    let turned := turned O w (w.clock O).cpu_frequency (w.elapse O now)
    (w.expire O now).ticks = turned.ticks ∧ (w.expire O now).fired = turned.fired
      ∧ (w.expire O now).clock O
        = { (if (w.clock O).cpu_frequency < w.elapse O now then
              { turned.clock O with
                fill := w.elapse O now
                  - timerTicks (w.clock O) now * (w.clock O).cpu_frequency
                last_expire := now }
            else turned.clock O) with now := now } := by
  refine ⟨rfl, rfl, ?_⟩
  refine (clock_setClock (O := O) _ _).trans ?_
  rw [timerExpireLoop_snd]
  rfl

theorem Slots.congr (h : Slots O size n w)
    (htotal : (w'.clock O).total_clock_seconds = (w.clock O).total_clock_seconds)
    (hhand : (w'.clock O).next_clock_second = (w.clock O).next_clock_second)
    (htable : (w'.clock O).timer_table = (w.clock O).timer_table) : Slots O size n w' where
  size_pos := h.size_pos
  total := htotal.trans h.total
  hand := hhand.trans h.hand
  nodup := by rw [htable]; exact h.nodup
  beyond := by rw [htable]; exact h.beyond

/-- **An expiry ticks so many times**, and keeps the slots and what every tick keeps. -/
theorem expire_keeps {X : ℕ → Wheel σ → Prop}
    (htick : ∀ w, Slots O size w.ticks w → X w.ticks w → X (w.ticks + 1) (w.tick O))
    (hset : ∀ n w w', w'.fired = w.fired →
      (w'.clock O).timer_table = (w.clock O).timer_table → X n w → X n w')
    (hs : Slots O size w.ticks w) (hx : X w.ticks w) (now : ℕ) :
    (w.expire O now).ticks = w.ticks + timerTicks (w.clock O) now
      ∧ Slots O size (w.expire O now).ticks (w.expire O now)
      ∧ X (w.expire O now).ticks (w.expire O now) := by
  obtain ⟨hticks, hslots, hkept⟩ :=
    turned_keeps htick hs hx (w.clock O).cpu_frequency (w.elapse O now)
  obtain ⟨hcount, hfired, hclock⟩ := expire_eq (O := O) w now
  rw [hcount]
  have htable : ((w.expire O now).clock O).timer_table
      = ((turned O w (w.clock O).cpu_frequency (w.elapse O now)).clock O).timer_table := by
    rw [hclock]
    split <;> rfl
  refine ⟨hticks, hslots.congr ?_ ?_ htable, hset _ _ _ hfired htable hkept⟩
  · rw [hclock]
    split <;> rfl
  · rw [hclock]
    split <;> rfl

/-- **The ticks and the time left over** add up to the time since the start: the last
reading is `ticks` seconds and a rest after it, the rest no more than a second, and more
than nothing once there was a tick. -/
structure Timely (O : WheelOwner σ) (f t₀ : ℕ) (w : Wheel σ) : Prop where
  /-- The units in a second. -/
  frequency : (w.clock O).cpu_frequency = f
  /-- The last expiry was no later than the last reading. -/
  last_le : (w.clock O).last_expire ≤ (w.clock O).now
  /-- The time since the start. -/
  sum : t₀ + w.ticks * f + w.elapse O (w.clock O).now = (w.clock O).now
  /-- No second is left over. -/
  rest_le : w.elapse O (w.clock O).now ≤ f
  /-- Something is left over from a tick. -/
  rest_pos : w.ticks = 0 ∨ 0 < w.elapse O (w.clock O).now

/-- What an expiry writes down. -/
theorem Slots.expire_clock (hs : Slots O size w.ticks w) (now : ℕ) :
    (w.expire O now).ticks = w.ticks + timerTicks (w.clock O) now
      ∧ ((w.expire O now).clock O).cpu_frequency = (w.clock O).cpu_frequency
      ∧ ((w.expire O now).clock O).now = now
      ∧ ((w.expire O now).clock O).last_expire
        = (if (w.clock O).cpu_frequency < w.elapse O now then now
          else (w.clock O).last_expire)
      ∧ ((w.expire O now).clock O).fill
        = (if (w.clock O).cpu_frequency < w.elapse O now then
            w.elapse O now - timerTicks (w.clock O) now * (w.clock O).cpu_frequency
          else (w.clock O).fill) := by
  obtain ⟨hticks, -, hfreq, hfill, hlast⟩ := turned_keeps (O := O)
    (X := fun _ u => (u.clock O).cpu_frequency = (w.clock O).cpu_frequency
      ∧ (u.clock O).fill = (w.clock O).fill
      ∧ (u.clock O).last_expire = (w.clock O).last_expire)
    (fun u hu ⟨hfreq, hfill, hlast⟩ =>
      ⟨hu.tick_rest.1.trans hfreq, hu.tick_rest.2.1.trans hfill, hu.tick_rest.2.2.trans hlast⟩)
    hs ⟨rfl, rfl, rfl⟩ (w.clock O).cpu_frequency (w.elapse O now)
  obtain ⟨hcount, -, hclock⟩ := expire_eq (O := O) w now
  refine ⟨hcount.trans hticks, ?_⟩
  rw [hclock]
  split
  · exact ⟨hfreq, rfl, rfl, rfl⟩
  · exact ⟨hfreq, rfl, hlast, hfill⟩

/-- **An expiry keeps the time**, whenever it is called. -/
theorem Timely.expire {f t₀ : ℕ} (hf : 0 < f) (hs : Slots O size w.ticks w)
    (h : Timely O f t₀ w) {now : ℕ} (hnow : (w.clock O).now ≤ now) :
    Timely O f t₀ (w.expire O now) := by
  obtain ⟨hticks, hfreq, hread, hlast, hfill⟩ := hs.expire_clock now
  have hturns : timerTicks (w.clock O) now = (w.elapse O now - 1) / f := by
    rw [← timerExpireTurns_eq hf (le_refl (w.elapse O now)), ← h.frequency]
    rfl
  have hlate : w.elapse O now = w.elapse O (w.clock O).now + (now - (w.clock O).now) := by
    have hle := h.last_le
    rw [elapse, elapse]
    omega
  have hsum := h.sum
  rw [h.frequency] at hfreq hlast hfill
  rw [hturns] at hticks hfill
  by_cases hflag : f < w.elapse O now
  · rw [if_pos hflag] at hlast hfill
    have hmod := Nat.div_add_mod (w.elapse O now - 1) f
    have hlt := Nat.mod_lt (w.elapse O now - 1) hf
    rw [Nat.mul_comm] at hmod
    have hrest : (w.expire O now).elapse O ((w.expire O now).clock O).now
        = w.elapse O now - (w.elapse O now - 1) / f * f := by
      rw [elapse, hread, hlast, hfill, Nat.sub_self, Nat.zero_add]
    refine ⟨hfreq, by rw [hlast, hread], ?_, ?_, Or.inr ?_⟩
    · rw [hrest, hticks, hread, Nat.add_mul]
      omega
    · rw [hrest]
      omega
    · rw [hrest]
      omega
  · rw [if_neg hflag] at hlast hfill
    have hzero : (w.elapse O now - 1) / f = 0 := Nat.div_eq_of_lt (by omega)
    have hrest : (w.expire O now).elapse O ((w.expire O now).clock O).now
        = w.elapse O now := by
      rw [elapse, hread, hlast, hfill]
      rfl
    rw [hzero, Nat.add_zero] at hticks
    refine ⟨hfreq, ?_, ?_, ?_, ?_⟩
    · rw [hlast, hread]
      exact h.last_le.trans hnow
    · rw [hrest, hticks, hread]
      omega
    · rw [hrest]
      exact not_lt.mp hflag
    · rw [hrest, hticks, hlate]
      exact h.rest_pos.imp id (fun hpos => Nat.lt_of_lt_of_le hpos (Nat.le_add_right _ _))

/-- The ticks are given by the last reading. -/
theorem Timely.ticks_eq {f t₀ : ℕ} (hf : 0 < f) (h : Timely O f t₀ w) :
    w.ticks = ((w.clock O).now - t₀ - 1) / f ∧ t₀ ≤ (w.clock O).now := by
  have hsum := h.sum
  have hle := h.rest_le
  refine ⟨(Nat.div_eq_of_lt_le ?_ ?_).symm, by omega⟩
  · rcases h.rest_pos with hzero | hpos
    · rw [hzero, Nat.zero_mul]
      exact Nat.zero_le _
    · omega
  · rw [Nat.add_mul, Nat.one_mul]
    omega

end Expire

end Wheel

/-! ## Every sequence of calls -/

/-- A call on the wheel. -/
inductive TimerCall
  /-- `timer_add`. -/
  | add (t : ℕ) (seconds : ℤ)
  /-- `timer_del`. -/
  | del (t : ℕ)
  /-- `timer_expire`, at a reading of the clock. -/
  | expire (now : ℕ)
  /-- The owner does something that does not concern the wheel. -/
  | other

/-- The call adds this timer. -/
def TimerCall.Adds (t : ℕ) : TimerCall → Prop
  | .add u _ => u = t
  | _ => False

/-- The call adds or deletes this timer. -/
def TimerCall.Touches (t : ℕ) : TimerCall → Prop
  | .add u _ => u = t
  | .del u => u = t
  | _ => False

/-- The last reading of the clock, from the one at the start on. -/
def lastReading (t₀ : ℕ) : List TimerCall → ℕ
  | [] => t₀
  | .expire now :: calls => lastReading now calls
  | _ :: calls => lastReading t₀ calls

theorem lastReading_append (t₀ : ℕ) (calls later : List TimerCall) :
    lastReading t₀ (calls ++ later) = lastReading (lastReading t₀ calls) later := by
  induction calls generalizing t₀ with
  | nil => rfl
  | cons call calls ih =>
    cases call with
    | expire now => exact ih now
    | _ => exact ih t₀

/-- **One call**: a timer is added when it is not in the wheel, and the clock does not go
back. -/
inductive Wheel.Step (O : WheelOwner σ) (w : Wheel σ) : TimerCall → Wheel σ → Prop
  | add {t : ℕ} {seconds : ℤ} {s : σ} :
      t ∉ linked (w.clock O).total_clock_seconds (w.clock O).timer_table →
      O.clockOf s = timerAdd (w.clock O) t seconds →
      Wheel.Step O w (.add t seconds) { w with state := s }
  | del {t : ℕ} {s : σ} : O.clockOf s = timerDel (w.clock O) t →
      Wheel.Step O w (.del t) { w with state := s }
  | expire {now : ℕ} : (w.clock O).now ≤ now →
      Wheel.Step O w (.expire now) (w.expire O now)
  | other {s : σ} : O.clockOf s = w.clock O → Wheel.Step O w .other { w with state := s }

/-- **A wheel from `timer_module_init` on**, with `f` units in a second. -/
def wheelSystem (O : WheelOwner σ) (f t₀ : ℕ) (seconds : ℤ) : System (Wheel σ) TimerCall where
  init w := w.clock O = { timerModuleInit t₀ seconds with cpu_frequency := f }
    ∧ w.ticks = 0 ∧ w.fired = []
  step := Wheel.Step O

/-- The number of slots `timer_module_init` makes. -/
def wheelSize (seconds : ℤ) : ℕ := (timerModuleInit 0 seconds).total_clock_seconds

theorem wheelSize_pos {seconds : ℤ} (h : seconds ≠ 0) : 0 < wheelSize seconds := by
  show 0 < (if seconds < 0 then defaultSeconds else seconds).toNat
  split
  · decide
  · omega

namespace Wheel

section Calls

variable {O : WheelOwner σ} {w w' : Wheel σ} {size n t u due : ℕ} {runs : List ℕ}
  {f t₀ : ℕ} {seconds : ℤ} {call : TimerCall}

/-- Adding a timer that is not in the wheel keeps the slots. -/
theorem Slots.add (h : Slots O size n w)
    (ht : u ∉ linked (w.clock O).total_clock_seconds (w.clock O).timer_table)
    (hclock : w'.clock O = timerAdd (w.clock O) u seconds) : Slots O size n w' := by
  obtain ⟨i, hi, hadd⟩ := exists_timerAdd_eq (h.total ▸ h.size_pos) u seconds
  rw [hadd] at hclock
  rw [h.total] at ht hi
  refine ⟨h.size_pos, ?_, ?_, ?_, fun j hj => ?_⟩
  · rw [hclock]
    exact h.total
  · rw [hclock]
    exact h.hand
  · rw [hclock, (linked_bucketAdd hi _ u).nodup_iff, List.nodup_cons]
    exact ⟨ht, h.nodup⟩
  · rw [hclock]
    exact (Function.update_of_ne (by omega) _ _).trans (h.beyond j hj)

/-- Deleting a timer keeps the slots. -/
theorem Slots.del (h : Slots O size n w) (hclock : w'.clock O = timerDel (w.clock O) u) :
    Slots O size n w' := by
  refine ⟨h.size_pos, ?_, ?_, ?_, fun j hj => ?_⟩
  · rw [hclock]
    exact h.total
  · rw [hclock]
    exact h.hand
  · rw [hclock]
    show (linked size (bucketDel (w.clock O).timer_table u)).Nodup
    rw [linked_bucketDel h.nodup]
    exact h.nodup.erase u
  · rw [hclock]
    show ((w.clock O).timer_table j).erase u = []
    rw [h.beyond j hj]
    rfl

/-- Only the slots change. -/
theorem Timely.congr {table : ℕ → List ℕ} (h : Timely O f t₀ w) (hticks : w'.ticks = w.ticks)
    (hclock : w'.clock O = { w.clock O with timer_table := table }) : Timely O f t₀ w' := by
  have hrest : w'.elapse O (w'.clock O).now = w.elapse O (w.clock O).now := by
    rw [elapse, elapse, hclock]
  refine ⟨?_, ?_, ?_, ?_, ?_⟩
  · rw [hclock]
    exact h.frequency
  · rw [hclock]
    exact h.last_le
  · rw [hrest, hticks, hclock]
    exact h.sum
  · rw [hrest]
    exact h.rest_le
  · rw [hrest, hticks]
    exact h.rest_pos

/-- **What holds of the wheel at every moment.** -/
structure Ok (O : WheelOwner σ) (f t₀ size : ℕ) (w : Wheel σ) : Prop where
  /-- The slots, at the ticks so far. -/
  slots : Slots O size w.ticks w
  /-- The time. -/
  timely : Timely O f t₀ w

theorem ok_init (hseconds : seconds ≠ 0) (h : (wheelSystem O f t₀ seconds).init w) :
    Ok O f t₀ (wheelSize seconds) w := by
  obtain ⟨hclock, hticks, -⟩ := h
  have hrest : w.elapse O (w.clock O).now = 0 := by
    rw [elapse, hclock]
    exact Nat.sub_self t₀
  refine ⟨⟨wheelSize_pos hseconds, ?_, ?_, ?_, fun i _ => ?_⟩, ⟨?_, ?_, ?_, ?_, ?_⟩⟩
  · rw [hclock]
    rfl
  · rw [hclock, hticks]
    exact (Nat.zero_mod _).symm
  · rw [hclock]
    show (linked _ (fun _ => [])).Nodup
    rw [linked_nil]
    exact List.nodup_nil
  · rw [hclock]
    rfl
  · rw [hclock]
  · rw [hclock]
    exact le_rfl
  · rw [hrest, hticks, hclock, Nat.zero_mul]
    rfl
  · rw [hrest]
    exact Nat.zero_le f
  · exact Or.inl hticks

/-- The slots after an expiry. -/
theorem Slots.expire (h : Slots O size w.ticks w) (now : ℕ) :
    Slots O size (w.expire O now).ticks (w.expire O now) :=
  (expire_keeps (X := fun _ _ => True) (fun _ _ _ => trivial) (fun _ _ _ _ _ _ => trivial)
    h trivial now).2.1

/-- **A call keeps the wheel.** -/
theorem Ok.step (hf : 0 < f) (h : Ok O f t₀ size w) (hstep : Step O w call w') :
    Ok O f t₀ size w' := by
  cases hstep with
  | add ht hclock => exact ⟨h.slots.add ht hclock, h.timely.congr rfl hclock⟩
  | del hclock => exact ⟨h.slots.del hclock, h.timely.congr rfl hclock⟩
  | expire hnow => exact ⟨h.slots.expire _, h.timely.expire hf h.slots hnow⟩
  | other hclock =>
    exact ⟨h.slots.congr (congrArg Clock.total_clock_seconds hclock)
      (congrArg Clock.next_clock_second hclock) (congrArg Clock.timer_table hclock),
      h.timely.congr rfl hclock⟩

/-- The last reading is the one the clock has. -/
theorem now_run {calls : List TimerCall} (h : (wheelSystem O f t₀ seconds).Run w calls w')
    (hok : Ok O f t₀ size w) (hf : 0 < f) :
    Ok O f t₀ size w' ∧ (w'.clock O).now = lastReading (w.clock O).now calls := by
  induction h with
  | nil => exact ⟨hok, rfl⟩
  | @snoc calls v v' call _ hstep ih =>
    obtain ⟨hokv, hnow⟩ := ih
    refine ⟨hokv.step hf hstep, ?_⟩
    rw [lastReading_append, ← hnow]
    cases hstep with
    | expire _ => exact (hokv.slots.expire_clock _).2.2.1
    | add _ hclock => exact (congrArg Clock.now hclock).trans rfl
    | del hclock => exact (congrArg Clock.now hclock).trans rfl
    | other hclock => exact congrArg Clock.now hclock

/-- A timer is in the slots it was in after a call on another timer. -/
theorem Step.mem_iff (hstep : Step O w call w') (hcall : ¬ call.Touches t)
    (hexpire : ∀ now, call ≠ .expire now) (i : ℕ) :
    t ∈ (w'.clock O).timer_table i ↔ t ∈ (w.clock O).timer_table i := by
  cases hstep with
  | @add u _ _ _ hclock =>
    rw [clock_state, hclock]
    exact mem_bucketAdd_of_ne (fun he => hcall he.symm)
  | @del u _ hclock =>
    rw [clock_state, hclock]
    exact mem_bucketDel_of_ne (fun he => hcall he.symm)
  | expire _ => exact absurd rfl (hexpire _)
  | other hclock => rw [clock_state, hclock]

/-- Only an expiry runs timers. -/
theorem Step.history_eq (hstep : Step O w call w') (hexpire : ∀ now, call ≠ .expire now) :
    w'.fired = w.fired ∧ w'.ticks = w.ticks := by
  cases hstep with
  | expire _ => exact absurd rfl (hexpire _)
  | _ => exact ⟨rfl, rfl⟩

/-- **An idle timer stays idle** until it is added. -/
theorem Idle.step (hs : Slots O size w.ticks w) (h : Idle O t runs w)
    (hstep : Step O w call w') (hcall : ¬ call.Adds t) : Idle O t runs w' := by
  cases hstep with
  | @add u _ _ _ hclock =>
    refine ⟨fun i hmem => h.unlinked i ?_, h.runs_eq⟩
    rw [clock_state, hclock] at hmem
    exact (mem_bucketAdd_of_ne (fun he => hcall he.symm)).mp hmem
  | @del u _ hclock =>
    refine ⟨fun i hmem => h.unlinked i ?_, h.runs_eq⟩
    rw [clock_state, hclock] at hmem
    exact List.mem_of_mem_erase hmem
  | expire _ =>
    exact (expire_keeps (X := fun _ w => Idle O t runs w) (fun _ hs h => h.tick hs)
      (fun _ _ _ hfired htable h => h.congr hfired htable) hs h _).2.2
  | other hclock => exact Idle.congr (w := w) rfl (congrArg Clock.timer_table hclock) h

/-- **A timer stays due at its tick** until it is added again or deleted. -/
theorem Tracks.step (hs : Slots O size w.ticks w) (h : Tracks O size t due runs w.ticks w)
    (hstep : Step O w call w') (hcall : ¬ call.Touches t) :
    Tracks O size t due runs w'.ticks w' := by
  by_cases hexpire : ∃ now, call = .expire now
  · obtain ⟨now, rfl⟩ := hexpire
    cases hstep
    exact (expire_keeps (fun _ hs h => h.tick hs)
      (fun _ _ _ hfired htable h => h.congr hfired htable) hs h now).2.2
  · have hexpire : ∀ now, call ≠ .expire now := fun now he => hexpire ⟨now, he⟩
    have hmem := hstep.mem_iff hcall hexpire
    obtain ⟨hfired, hticks⟩ := hstep.history_eq hexpire
    rw [hticks]
    rcases h with h | ⟨hdue, h⟩
    · refine Or.inl ⟨h.before, h.ahead, (hmem _).mpr h.slot, ?_⟩
      rw [Wheel.runs, hfired]
      exact h.runs_eq
    · refine Or.inr ⟨hdue, fun i hi => h.unlinked i ((hmem i).mp hi), ?_⟩
      rw [Wheel.runs, hfired]
      exact h.runs_eq

/-- A new timer waits for the tick its seconds ahead, a turn at most. -/
theorem Slots.waits_add {s : ℕ} (h : Slots O size w.ticks w) (hs : 1 ≤ s)
    (hstep : Step O w (.add t s) w') :
    w'.ticks = w.ticks
      ∧ Waits O size t (w.ticks + min s size) (w.runs t) w'.ticks w' := by
  cases hstep with
  | add ht hclock =>
    refine ⟨rfl, ?_, ?_, ?_, rfl⟩
    · have hpos := h.size_pos
      show w.ticks < w.ticks + min s size
      omega
    · exact Nat.add_le_add_left (min_le_right _ _) _
    · have hadd : timerAdd (w.clock O) t s = timerAdd (w.clock O) t (min s size : ℕ) := by
        rw [timerAdd, timerAdd, h.total]
        have hcut : (if (size : ℤ) < (s : ℤ) then (size : ℤ) else s)
            = (if (size : ℤ) < ((min s size : ℕ) : ℤ) then (size : ℤ) else (min s size : ℕ)) := by
          split <;> split <;> omega
        rw [hcut]
      have hle : min s size ≤ (w.clock O).total_clock_seconds := by
        rw [h.total]
        exact min_le_right _ _
      rw [clock_state, hclock, hadd, timerAdd_eq hle, h.hand, h.total, Nat.mod_add_mod]
      exact mem_bucketAdd_self _ _ _

/-- A timer that is deleted is idle. -/
theorem Waits.del (hs : Slots O size w.ticks w) (h : Waits O size t due runs w.ticks w)
    (hstep : Step O w (.del t) w') : Idle O t runs w' := by
  cases hstep with
  | del hclock =>
    refine ⟨fun i hmem => ?_, h.runs_eq⟩
    rw [clock_state, hclock] at hmem
    have hnodup : ((w.clock O).timer_table i).Nodup := by
      by_cases hi : i < size
      · exact (List.nodup_flatMap.mp hs.nodup).1 i (List.mem_range.mpr hi)
      · rw [hs.beyond i (not_lt.mp hi)]
        exact List.nodup_nil
    exact hnodup.not_mem_erase hmem

/-- A run keeps the wheel and an idle timer. -/
theorem Idle.run (hf : 0 < f) {calls : List TimerCall}
    (h : (wheelSystem O f t₀ seconds).Run w calls w') (hok : Ok O f t₀ size w)
    (hidle : Idle O t runs w) (hcalls : ∀ call ∈ calls, ¬ call.Adds t) :
    Idle O t runs w' := by
  have hrun : Ok O f t₀ size w' ∧ Idle O t runs w' := by
    induction h with
    | nil => exact ⟨hok, hidle⟩
    | snoc _ hstep ih =>
      obtain ⟨hok', hidle'⟩ := ih (fun c hc => hcalls c (List.mem_append_left _ hc))
      exact ⟨hok'.step hf hstep, hidle'.step hok'.slots hstep
        (hcalls _ (List.mem_append_right _ (List.mem_singleton_self _)))⟩
  exact hrun.2

/-- **Over a run a timer stays due at its tick.** -/
theorem Tracks.run (hf : 0 < f) {calls : List TimerCall}
    (h : (wheelSystem O f t₀ seconds).Run w calls w') (hok : Ok O f t₀ size w)
    (htracks : Tracks O size t due runs w.ticks w)
    (hcalls : ∀ call ∈ calls, ¬ call.Touches t) :
    Ok O f t₀ size w' ∧ Tracks O size t due runs w'.ticks w' := by
  induction h with
  | nil => exact ⟨hok, htracks⟩
  | snoc _ hstep ih =>
    obtain ⟨hok', htracks'⟩ := ih (fun c hc => hcalls c (List.mem_append_left _ hc))
    exact ⟨hok'.step hf hstep, htracks'.step hok'.slots hstep
      (hcalls _ (List.mem_append_right _ (List.mem_singleton_self _)))⟩

/-- A timer ran once since, if its tick is past, and not yet otherwise. -/
theorem Tracks.runs_eq (h : Tracks O size t due runs n w) :
    w.runs t = runs ++ if due ≤ n then [due] else [] := by
  rcases h with h | ⟨hdue, h⟩
  · rw [if_neg (not_le.mpr h.before), List.append_nil, h.runs_eq]
  · rw [if_pos hdue, h.runs_eq]

/-- So many ticks later is more than so many seconds but one later. -/
theorem Timely.lt_of_ticks {s : ℕ} (h : Timely O f t₀ w) (h' : Timely O f t₀ w')
    (hs : 1 ≤ s) (hticks : w.ticks + s ≤ w'.ticks) :
    (w.clock O).now + (s - 1) * f < (w'.clock O).now := by
  have hsum := h.sum
  have hsum' := h'.sum
  have hle := h.rest_le
  have hpos := h'.rest_pos.resolve_left (by omega)
  obtain ⟨k, rfl⟩ := Nat.exists_eq_add_of_le' hs
  have hmul := Nat.mul_le_mul_right f hticks
  rw [Nat.add_mul, Nat.add_mul, Nat.one_mul] at hmul
  rw [Nat.add_sub_cancel]
  omega

/-- More than so many seconds later is so many ticks later. -/
theorem Timely.ticks_of_lt {s : ℕ} (h : Timely O f t₀ w) (h' : Timely O f t₀ w')
    (hlt : (w.clock O).now + s * f < (w'.clock O).now) : w.ticks + s ≤ w'.ticks := by
  by_contra hnot
  have hsum := h.sum
  have hsum' := h'.sum
  have hle := h'.rest_le
  have hmul : (w'.ticks + 1) * f ≤ (w.ticks + s) * f := Nat.mul_le_mul_right f (by omega)
  rw [Nat.add_mul, Nat.add_mul, Nat.one_mul] at hmul
  omega

end Calls

end Wheel

/-- The whole seconds that have begun, but the first. -/
theorem ceil_sub_one {e f : ℕ} (hf : 0 < f) :
    (((e - 1) / f : ℕ) : ℤ) = max 0 (⌈(e : ℚ) / f⌉ - 1) := by
  have hfq : (0 : ℚ) < f := Nat.cast_pos.mpr hf
  cases e with
  | zero => simp
  | succ e =>
    have hceil : ⌈((e + 1 : ℕ) : ℚ) / f⌉ = ((e / f : ℕ) : ℤ) + 1 := by
      have hlow : f * (e / f) ≤ e := Nat.mul_div_le e f
      have hhigh : e < f * (e / f + 1) := Nat.lt_mul_div_succ e hf
      generalize e / f = q at hlow hhigh
      have hlow' : (f : ℚ) * q ≤ e := by exact_mod_cast hlow
      have hhigh' : ((e : ℚ) + 1) ≤ f * ((q : ℚ) + 1) := by exact_mod_cast hhigh
      rw [Int.ceil_eq_iff, lt_div_iff₀ hfq, div_le_iff₀ hfq]
      push_cast
      constructor <;> linarith
    rw [hceil, Nat.add_sub_cancel, add_sub_cancel_right]
    exact (max_eq_right (Int.natCast_nonneg _)).symm

/-- The connections own the wheel. -/
def connectionOwner : WheelOwner Tables where
  clockOf := Tables.clock
  setClock t clock := { t with clock := clock }
  handler := connectionTimeout
  clockOf_setClock _ _ := rfl
  clockOf_handler := Tables.clock_connectionFree

/-- **The wheel of the connections, with its history**, is their `timer_expire`. -/
theorem connectionOwner_expire (w : Wheel Tables) (now : ℕ) :
    (w.expire connectionOwner now).state = connectionTimerExpire w.state now :=
  w.state_expire connectionOwner now

/-- A wheel of its own, with handlers that do nothing but delete their timer. -/
def bareWheel : WheelOwner Clock where
  clockOf clock := clock
  setClock _ clock := clock
  handler := timerDel
  clockOf_setClock _ _ := rfl
  clockOf_handler _ _ := rfl

/-- A wheel of five slots, with ten units in a second. -/
def fiveSlots : Wheel Clock where
  state := { timerModuleInit 0 5 with cpu_frequency := 10 }
  ticks := 0
  fired := []

/-- Two ticks later, at 25. -/
def afterTwo : Wheel Clock := fiveSlots.expire bareWheel 25

/-- Then a timer of two seconds. -/
def withTimer : Wheel Clock := { afterTwo with state := timerAdd afterTwo.state 7 2 }

/-- Then another two ticks, at 50. -/
def afterFour : Wheel Clock := withTimer.expire bareWheel 50

theorem afterTwo_run :
    (wheelSystem bareWheel 10 0 5).Run fiveSlots [.expire 25] afterTwo :=
  System.Run.single (Wheel.Step.expire (Nat.zero_le 25))

theorem withTimer_step : afterTwo.Step bareWheel (.add 7 2) withTimer :=
  Wheel.Step.add (by decide) rfl

theorem afterFour_run :
    (wheelSystem bareWheel 10 0 5).Run withTimer [.expire 50] afterFour :=
  System.Run.single (Wheel.Step.expire (by decide))

theorem expire_not_touches (t : ℕ) : ∀ call ∈ [TimerCall.expire 50], ¬ call.Touches t := by
  simp [TimerCall.Touches]

/-! ## The results -/

section Results

variable {O : WheelOwner σ} {f t₀ t : ℕ} {seconds : ℤ} {w₀ w w₁ w₂ : Wheel σ}
  {calls : List TimerCall}

/-- **Ticks do not drift.** The ticks after any readings are those of the time since the
start, whatever the readings between; and a timer of `s` seconds, added when the last reading
was `tl`, has run by a reading only if that is past `tl` and `s - 1` seconds, and has run
(once, at its tick) by every reading past `tl` and `s` seconds. -/
theorem wheelSystem_noDrift (O : WheelOwner σ) (hf : 0 < f) (hseconds : seconds ≠ 0)
    (hinit : (wheelSystem O f t₀ seconds).init w₀)
    (hrun : (wheelSystem O f t₀ seconds).Run w₀ calls w) :
    (w.ticks : ℤ) = max 0 (⌈((lastReading t₀ calls - t₀ : ℕ) : ℚ) / f⌉ - 1)
      ∧ ∀ (t s : ℕ) (later : List TimerCall) (w₁ w₂ : Wheel σ),
        1 ≤ s → s ≤ wheelSize seconds → w.Step O (.add t s) w₁ →
        (wheelSystem O f t₀ seconds).Run w₁ later w₂ →
        (∀ call ∈ later, ¬ call.Touches t) →
        (w₂.runs t ≠ w.runs t →
            lastReading t₀ calls + (s - 1) * f < lastReading t₀ (calls ++ later))
          ∧ (lastReading t₀ calls + s * f < lastReading t₀ (calls ++ later) →
            w₂.runs t = w.runs t ++ [w.ticks + s]) := by
  have hok₀ := Wheel.ok_init hseconds hinit
  have hstart : (w₀.clock O).now = t₀ := by
    rw [hinit.1]
    rfl
  obtain ⟨hok, hnow⟩ := Wheel.now_run hrun hok₀ hf
  rw [hstart] at hnow
  refine ⟨?_, fun t s later w₁ w₂ hs hle hadd hlater hcalls => ?_⟩
  · rw [(hok.timely.ticks_eq hf).1, hnow]
    exact ceil_sub_one hf
  · obtain ⟨-, hwaits⟩ := hok.slots.waits_add hs hadd
    obtain ⟨hok₂, htracks⟩ :=
      Wheel.Tracks.run hf hlater (hok.step hf hadd) (Or.inl hwaits) hcalls
    have hread := (Wheel.now_run hlater (hok.step hf hadd) hf).2
    have hsame : (w₁.clock O).now = (w.clock O).now := by
      cases hadd with
      | add _ hclock => exact (congrArg Clock.now hclock).trans rfl
    rw [hsame, hnow, ← lastReading_append] at hread
    rw [← hread, ← hnow, htracks.runs_eq, min_eq_left hle]
    constructor
    · intro hne
      refine hok.timely.lt_of_ticks hok₂.timely hs (not_lt.mp (fun hlt => hne ?_))
      rw [if_neg (not_le.mpr hlt), List.append_nil]
    · intro hlt
      rw [if_pos (hok.timely.ticks_of_lt hok₂.timely hlt)]

theorem wheelSystem_noDrift_afterTwo :
    (afterTwo.ticks : ℤ)
        = max 0 (⌈((lastReading 0 [.expire 25] - 0 : ℕ) : ℚ) / (10 : ℕ)⌉ - 1)
      ∧ afterFour.runs 7 = afterTwo.runs 7 ++ [afterTwo.ticks + 2] := by
  obtain ⟨hticks, htimer⟩ := wheelSystem_noDrift bareWheel
    (by decide : 0 < 10) (by decide : (5 : ℤ) ≠ 0) ⟨rfl, rfl, rfl⟩ afterTwo_run
  exact ⟨hticks, (htimer 7 2 [.expire 50] withTimer afterFour (by decide) (by decide)
    withTimer_step afterFour_run (expire_not_touches 7)).2 (by decide)⟩

end Results
