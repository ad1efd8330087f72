import Mathlib.Tactic
import Mathlib.Data.List.Basic
import Mathlib.Data.List.Perm.Basic
import Mathlib.Data.Int.CardIntervalMod

/-!
# Windows of a ring

A ring of `size` slots and a *window* of it: the slots met by starting at one
and stepping `len` times, wrapping at the end. Rings of ports, of descriptors
and of queue slots are all read through windows, and what makes an operation on
one correct is nearly always one of four facts: the window grows at its right
end (`cyclic_succ`), shrinks at its left end (`cyclic_succ'`), meets no slot
twice while it fits (`nodup_cyclic`), and does not meet the slot just past it
(`notMem_cyclic`).

The two wrap computations that code uses – a remainder, and a comparison that
resets to zero – agree inside the ring (`wrapNext_eq_mod`).
-/

variable {α : Type*}

/-- The successor of a slot, computed by comparison. -/
def wrapNext (size i : ℕ) : ℕ := if size ≤ i + 1 then 0 else i + 1

theorem wrapNext_eq_mod {size i : ℕ} (h : i < size) :
    wrapNext size i = (i + 1) % size := by
  unfold wrapNext
  split
  · rw [show i + 1 = size from by omega, Nat.mod_self]
  · exact (Nat.mod_eq_of_lt (by omega)).symm

theorem wrapNext_lt {size i : ℕ} (h : i < size) : wrapNext size i < size := by
  rw [wrapNext_eq_mod h]
  exact Nat.mod_lt _ (by omega)

/-- The window of `len` slots from `start`. -/
def cyclic (size start len : ℕ) : List ℕ :=
  (List.range len).map (fun k => (start + k) % size)

@[simp] theorem cyclic_zero (size start : ℕ) : cyclic size start 0 = [] := rfl

@[simp] theorem length_cyclic (size start len : ℕ) :
    (cyclic size start len).length = len := by
  rw [cyclic, List.length_map, List.length_range]

theorem mem_cyclic {size start len i : ℕ} :
    i ∈ cyclic size start len ↔ ∃ k < len, (start + k) % size = i := by
  rw [cyclic, List.mem_map]
  simp only [List.mem_range]

/-- A window grows at its right end. -/
theorem cyclic_succ (size start len : ℕ) :
    cyclic size start (len + 1) = cyclic size start len ++ [(start + len) % size] := by
  rw [cyclic, List.range_succ, List.map_append]
  rfl

/-- A window depends on its start up to the size. -/
theorem cyclic_mod (size start len : ℕ) :
    cyclic size (start % size) len = cyclic size start len := by
  unfold cyclic
  exact List.map_congr_left (fun k _ => Nat.mod_add_mod start size k)

/-- Two windows end to end are one. -/
theorem cyclic_add (size start m n : ℕ) :
    cyclic size start (m + n) = cyclic size start m ++ cyclic size (start + m) n := by
  induction n with
  | zero => simp
  | succ n ih => rw [← Nat.add_assoc, cyclic_succ, ih, cyclic_succ, List.append_assoc,
      Nat.add_assoc]

/-- A window shrinks at its left end. -/
theorem cyclic_succ' (size start len : ℕ) :
    cyclic size start (len + 1) = start % size :: cyclic size (start + 1) len := by
  rw [Nat.add_comm len 1, cyclic_add]
  rfl

theorem cyclic_lt {size start len i : ℕ} (hs : 0 < size)
    (h : i ∈ cyclic size start len) : i < size := by
  obtain ⟨k, -, rfl⟩ := mem_cyclic.mp h
  exact Nat.mod_lt _ hs

/-- Offsets less than a turn apart are told apart by their slots. -/
theorem add_mod_inj {size a i j : ℕ} (hi : i < size) (hj : j < size)
    (h : (a + i) % size = (a + j) % size) : i = j := by
  have hij : i ≡ j [MOD size] := Nat.ModEq.add_left_cancel' a h
  rwa [Nat.ModEq, Nat.mod_eq_of_lt hi, Nat.mod_eq_of_lt hj] at hij

/-- A window that fits meets no slot twice. -/
theorem nodup_cyclic {size start len : ℕ} (h : len ≤ size) :
    (cyclic size start len).Nodup := by
  refine List.Nodup.map_on (fun i hi j hj hij => ?_) List.nodup_range
  rw [List.mem_range] at hi hj
  exact add_mod_inj (by omega) (by omega) hij

/-- The slot just past a window that leaves room is not in it. -/
theorem notMem_cyclic {size start len : ℕ} (h : len < size) :
    (start + len) % size ∉ cyclic size start len := by
  intro hmem
  obtain ⟨k, hk, hkl⟩ := mem_cyclic.mp hmem
  exact absurd (add_mod_inj (by omega) h hkl) (by omega)

/-- A write outside a list of slots does not change what is read there. -/
theorem map_update_of_notMem {slots : List ℕ} {f : ℕ → α} {i : ℕ} {x : α}
    (h : i ∉ slots) : slots.map (Function.update f i x) = slots.map f :=
  List.map_congr_left (fun _ hj =>
    Function.update_of_ne (ne_of_mem_of_not_mem hj h) x f)

/-- A write to one of a list of slots puts the new value for what was read there. -/
theorem perm_map_update {slots : List ℕ} {i : ℕ} (h : slots.Nodup) (hi : i ∈ slots) (f : ℕ → α)
    (x : α) : (f i :: slots.map (Function.update f i x)).Perm (x :: slots.map f) := by
  obtain ⟨before, after, rfl⟩ := List.append_of_mem hi
  obtain ⟨-, hafter, hdisj⟩ := List.nodup_append.mp h
  have hb : i ∉ before := fun hmem => hdisj i hmem i List.mem_cons_self rfl
  rw [List.map_append, List.map_append, List.map_cons, List.map_cons, Function.update_self,
    map_update_of_notMem hb, map_update_of_notMem (List.nodup_cons.mp hafter).1]
  refine (List.perm_middle.cons (f i)).trans ((List.Perm.swap x (f i) _).trans ?_)
  exact List.perm_middle.symm.cons x

/-- Overwriting the first of some slots that holds a value replaces that value. -/
theorem map_update_eq_replace [BEq α] [LawfulBEq α] {slots : List ℕ} (h : slots.Nodup) {f : ℕ → α}
    {a x : α} {i : ℕ} (hi : slots.find? (fun j => f j == a) = some i) :
    slots.map (Function.update f i x) = (slots.map f).replace a x := by
  induction slots with
  | nil => exact absurd hi (Option.some_ne_none i).symm
  | cons j slots ih =>
    rw [List.nodup_cons] at h
    rw [List.find?_cons] at hi
    by_cases hj : f j = a
    · rw [beq_iff_eq.mpr hj] at hi
      obtain rfl := Option.some.inj hi
      rw [List.map_cons, List.map_cons, Function.update_self, map_update_of_notMem h.1, hj,
        List.replace_cons_self]
    · have hne : j ≠ i := fun he => by
        rw [beq_eq_false_iff_ne.mpr hj] at hi
        exact hj (he ▸ by simpa using List.find?_some hi)
      rw [beq_eq_false_iff_ne.mpr hj] at hi
      rw [List.map_cons, List.map_cons, Function.update_of_ne hne, ih h.2 hi, List.replace_cons,
        beq_eq_false_iff_ne.mpr (Ne.symm hj)]

/-- The number of steps from one slot to another. -/
def cyclicDist (size i j : ℕ) : ℕ := (j + size - i) % size

/-- Between the slots of two absolute positions less than a turn apart, the
number of steps is their difference. -/
theorem cyclicDist_mod {size H T : ℕ} (hle : H ≤ T) (hlt : T - H < size) :
    cyclicDist size (H % size) (T % size) = T - H := by
  obtain ⟨d, rfl⟩ := Nat.exists_eq_add_of_le hle
  rw [Nat.add_sub_cancel_left] at hlt ⊢
  have hH : H % size < size := Nat.mod_lt _ (by omega)
  have hT : (H + d) % size = (H % size + d) % size := by
    rw [Nat.add_mod, Nat.mod_eq_of_lt hlt]
  unfold cyclicDist
  rw [hT]
  by_cases hwrap : H % size + d < size
  · rw [Nat.mod_eq_of_lt hwrap,
      show H % size + d + size - H % size = d + size from by omega,
      Nat.add_mod_right, Nat.mod_eq_of_lt hlt]
  · have hback : (H % size + d) % size = H % size + d - size := by
      rw [Nat.mod_eq_sub_mod (by omega), Nat.mod_eq_of_lt (by omega)]
    rw [hback, show H % size + d - size + size - H % size = d from by omega,
      Nat.mod_eq_of_lt hlt]

/-- **A window of slots that hold the elements of a list at their positions**
reads a stretch of that list. -/
theorem map_cyclic_eq {size A n : ℕ} {f : ℕ → α} {l : List α}
    (h : ∀ k, A ≤ k → k < A + n → l[k]? = some (f (k % size))) :
    (cyclic size A n).map f = (l.drop A).take n := by
  induction n with
  | zero => rfl
  | succ n ih =>
    rw [cyclic_succ, List.map_append, ih (fun k hk hkn => h k hk (by omega)),
      List.take_add_one, List.getElem?_drop, h (A + n) (Nat.le_add_right _ _) (by omega)]
    rfl

/-- The same between the slots of two positions. -/
theorem map_cyclic_mod_eq {size A B : ℕ} {f : ℕ → α} {l : List α} (hle : A ≤ B)
    (hlt : B - A < size)
    (h : ∀ k, A ≤ k → k < B → l[k]? = some (f (k % size))) :
    (cyclic size (A % size) (cyclicDist size (A % size) (B % size))).map f
      = (l.drop A).take (B - A) := by
  rw [cyclicDist_mod hle hlt, cyclic_mod]
  exact map_cyclic_eq (fun k hk hkn => h k hk (by omega))

/-- Absolute positions less than a turn apart with the same slot are equal. -/
theorem eq_of_mod_eq {size H T : ℕ} (hle : H ≤ T) (hlt : T - H < size)
    (h : H % size = T % size) : H = T := by
  have hd := cyclicDist_mod hle hlt
  rw [← h, cyclicDist, Nat.add_sub_cancel_left, Nat.mod_self] at hd
  omega

/-- The number of steps from one slot to another leads there. -/
theorem add_cyclicDist {size i j : ℕ} (hi : i < size) (hj : j < size) :
    (i + cyclicDist size i j) % size = j := by
  unfold cyclicDist
  rw [Nat.add_mod_mod, show i + (j + size - i) = j + size from by omega, Nat.add_mod_right,
    Nat.mod_eq_of_lt hj]

theorem cyclicDist_lt {size : ℕ} (hs : 0 < size) (i j : ℕ) : cyclicDist size i j < size :=
  Nat.mod_lt _ hs

/-- A window that does not fill the ring grows by the slot it ends at. -/
theorem cyclic_cyclicDist_succ {size i j : ℕ} (hi : i < size) (hj : j < size)
    (hne : (j + 1) % size ≠ i) :
    cyclic size i (cyclicDist size i ((j + 1) % size))
      = cyclic size i (cyclicDist size i j) ++ [j] := by
  have hlen := cyclicDist_lt (Nat.zero_lt_of_lt hi) i j
  have hadd := add_cyclicDist hi hj
  generalize cyclicDist size i j = len at hlen hadd
  have hmod : (j + 1) % size = (i + (len + 1)) % size := by
    rw [← hadd, Nat.mod_add_mod, Nat.add_assoc]
  have hroom : len + 1 < size := by
    refine lt_of_le_of_ne hlen (fun he => hne ?_)
    rw [hmod, he, Nat.add_mod_right, Nat.mod_eq_of_lt hi]
  have hdist : cyclicDist size i ((j + 1) % size) = len + 1 := by
    have h := @cyclicDist_mod size i (i + (len + 1)) (Nat.le_add_right _ _) (by omega)
    rw [Nat.mod_eq_of_lt hi, ← hmod] at h
    omega
  rw [hdist, cyclic_succ, hadd]

/-- A window that is not empty starts at its first slot. -/
theorem cyclic_cyclicDist_cons {size i j : ℕ} (hi : i < size) (hj : j < size)
    (hne : i ≠ j) :
    cyclic size i (cyclicDist size i j)
      = i :: cyclic size ((i + 1) % size) (cyclicDist size ((i + 1) % size) j) := by
  have hlen := cyclicDist_lt (Nat.zero_lt_of_lt hi) i j
  have hadd := add_cyclicDist hi hj
  generalize cyclicDist size i j = len at hlen hadd
  obtain _ | len := len
  · exact absurd (by rwa [Nat.add_zero, Nat.mod_eq_of_lt hi] at hadd) hne
  have hdist : cyclicDist size ((i + 1) % size) j = len := by
    have h := @cyclicDist_mod size (i + 1) (i + 1 + len) (Nat.le_add_right _ _) (by omega)
    rw [show i + 1 + len = i + (len + 1) from by omega, hadd] at h
    omega
  rw [hdist, cyclic_succ', cyclic_mod, Nat.mod_eq_of_lt hi]

/-! ## How often a window meets a slot -/

/-- A window meets a slot at the steps that are, up to the size, the distance to it. -/
theorem count_cyclic {size start i : ℕ} (hstart : start < size) (hi : i < size) (len : ℕ) :
    (cyclic size start len).count i = Nat.count (· ≡ cyclicDist size start i [MOD size]) len := by
  have hmeet : ∀ n, (start + n) % size = i ↔ n ≡ cyclicDist size start i [MOD size] := fun n => by
    have hdist := add_cyclicDist hstart hi
    constructor
    · intro h
      exact Nat.ModEq.add_left_cancel' start (h.trans hdist.symm)
    · intro h
      exact Eq.trans (h.add_left start) hdist
  induction len with
  | zero => rfl
  | succ n ih =>
    rw [cyclic_succ, List.count_append, ih, Nat.count_succ, List.count_singleton]
    by_cases h : (start + n) % size = i
    · rw [if_pos ((hmeet n).mp h), if_pos (beq_iff_eq.mpr h)]
    · rw [if_neg (fun hmod => h ((hmeet n).mpr hmod)), if_neg (fun heq => h (beq_iff_eq.mp heq))]

/-- **A window meets each slot as often as any other, up to once**: its length by the size,
rounded down or up. -/
theorem count_cyclic_fair {size start i : ℕ} (hstart : start < size) (hi : i < size) (len : ℕ) :
    (cyclic size start len).count i = len / size
      ∨ (cyclic size start len).count i = (len + size - 1) / size := by
  have hs : 0 < size := Nat.zero_lt_of_lt hi
  rw [count_cyclic hstart hi, Nat.count_modEq_card _ hs]
  split
  · next hlt =>
    -- a part of a turn is left over
    right
    have hrest : 0 < len % size := Nat.zero_lt_of_lt hlt
    have hsplit : len + size - 1 = (len % size - 1) + size * (len / size + 1) := by
      have hlen := Nat.div_add_mod len size
      rw [Nat.mul_add, Nat.mul_one]
      omega
    have hlast : len % size - 1 < size := by
      have hmod := Nat.mod_lt len hs
      omega
    rw [hsplit, Nat.add_mul_div_left _ _ hs, Nat.div_eq_of_lt hlast, Nat.zero_add]
  · exact Or.inl (Nat.add_zero _)
