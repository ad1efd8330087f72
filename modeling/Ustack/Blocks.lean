import Mathlib.Tactic

/-!
# Blocks of memory and grids of them

Blocks of one size that do not overlap, and the layout of a two-dimensional array
of blocks row after row. Memory shared between processes is laid out so more than
once: what has to be shown each time is that an index names one row and one
column (`grid_inj`), that it is within the array (`grid_lt`), and that blocks at
different indices are apart (`chunksApart_mul`).
-/

/-- Two chunks that do not overlap. -/
def chunksApart (chunksize a b : ℕ) : Prop :=
  a + chunksize ≤ b ∨ b + chunksize ≤ a

theorem chunksApart.mono {n k a b : ℕ} (hk : k ≤ n) (h : chunksApart n a b) :
    chunksApart k a b := by
  rcases h with h | h
  · exact Or.inl (by omega)
  · exact Or.inr (by omega)

theorem chunksApart.symm {n a b : ℕ} (h : chunksApart n a b) : chunksApart n b a := Or.symm h

/-- Chunks at different multiples of their size. -/
theorem chunksApart_mul {size i j : ℕ} (h : i ≠ j) : chunksApart size (i * size) (j * size) := by
  have hlt : ∀ {k l : ℕ}, k < l → k * size + size ≤ l * size := by
    intro k l hkl
    rw [← Nat.succ_mul]
    exact Nat.mul_le_mul_right _ hkl
  rcases Nat.lt_or_gt_of_ne h with h | h
  · exact Or.inl (hlt h)
  · exact Or.inr (hlt h)

/-- A chunk of an array is within it. -/
theorem mul_add_le_mul {size i n : ℕ} (h : i < n) : i * size + size ≤ n * size := by
  rw [← Nat.succ_mul]
  exact Nat.mul_le_mul_right _ h

/-- The index of a row and column is within the array. -/
theorem grid_lt {rows width r c : ℕ} (hr : r < rows) (hc : c < width) :
    r * width + c < rows * width :=
  lt_of_lt_of_le (Nat.add_lt_add_left hc _) (mul_add_le_mul hr)

/-- An index is of one row and one column. -/
theorem grid_inj {width r c r' c' : ℕ} (hc : c < width) (hc' : c' < width)
    (h : r * width + c = r' * width + c') : r = r' ∧ c = c' := by
  have hpos : 0 < width := Nat.zero_lt_of_lt hc
  have hdiv : ∀ {r c}, c < width → (r * width + c) / width = r := fun hc => by
    rw [Nat.mul_comm, Nat.mul_add_div hpos, Nat.div_eq_of_lt hc, Nat.add_zero]
  have hmod : ∀ {r c}, c < width → (r * width + c) % width = c := fun hc => by
    rw [Nat.mul_comm, Nat.mul_add_mod, Nat.mod_eq_of_lt hc]
  exact ⟨by rw [← hdiv (r := r) hc, h, hdiv hc'], by rw [← hmod (c := c) hc, h, hmod hc']⟩
