import Mathlib.Tactic

/-!
# Little-endian memory

A block of memory as a function from offsets to bytes, and the loads and stores
of 16- and 32-bit words of a little-endian machine. A store of any width is one
`storeBytes`, so there is one frame rule for all of them: what lies outside the
stored range is unchanged (`storeBytes_of_lt`, `storeBytes_of_ge`), and so is
every load that does not meet it (`agree_storeBytes`).
-/

/-- A block of memory. -/
abbrev Memory := ℕ → UInt8

/-- The 16-bit word at an offset. -/
def load16 (m : Memory) (off : ℕ) : UInt16 :=
  (m off).toUInt16 + (m (off + 1)).toUInt16 * 256

/-- The 32-bit word at an offset. -/
def load32 (m : Memory) (off : ℕ) : UInt32 :=
  (m off).toUInt32 + (m (off + 1)).toUInt32 * 256 + (m (off + 2)).toUInt32 * 65536
    + (m (off + 3)).toUInt32 * 16777216

/-- The `n` bytes at an offset, as a block of their own. -/
def loadBytes (m : Memory) (off : ℕ) : Memory := fun i => m (off + i)

/-- Copy the first `n` bytes of a block to an offset. -/
def storeBytes (m : Memory) (off n : ℕ) (bytes : Memory) : Memory :=
  fun i => if off ≤ i ∧ i < off + n then bytes (i - off) else m i

/-- The bytes of a 16-bit word. -/
def bytes16 (v : UInt16) : Memory :=
  fun i => if i = 0 then v.toUInt8 else (v / 256).toUInt8

/-- The bytes of a 32-bit word. -/
def bytes32 (v : UInt32) : Memory :=
  fun i => if i = 0 then v.toUInt8 else if i = 1 then (v / 256).toUInt8
    else if i = 2 then (v / 65536).toUInt8 else (v / 16777216).toUInt8

/-- Store a 16-bit word. -/
def store16 (m : Memory) (off : ℕ) (v : UInt16) : Memory :=
  storeBytes m off 2 (bytes16 v)

/-- Store a 32-bit word. -/
def store32 (m : Memory) (off : ℕ) (v : UInt32) : Memory :=
  storeBytes m off 4 (bytes32 v)

section Frame

variable {m : Memory} {off n i : ℕ} {bytes : Memory}

theorem storeBytes_of_lt (h : i < off) : storeBytes m off n bytes i = m i :=
  if_neg (by omega)

theorem storeBytes_of_ge (h : off + n ≤ i) : storeBytes m off n bytes i = m i :=
  if_neg (by omega)

/-- What was stored is read back. -/
theorem storeBytes_add (h : i < n) : storeBytes m off n bytes (off + i) = bytes i := by
  rw [storeBytes, if_pos (by omega), Nat.add_sub_cancel_left]

theorem load16_congr {m' : Memory} {p : ℕ} (h0 : m p = m' p)
    (h1 : m (p + 1) = m' (p + 1)) : load16 m p = load16 m' p := by
  rw [load16, load16, h0, h1]

theorem load32_congr {m' : Memory} {p : ℕ} (h : ∀ i < 4, m (p + i) = m' (p + i)) :
    load32 m p = load32 m' p := by
  have h0 := h 0 (by omega)
  rw [Nat.add_zero] at h0
  rw [load32, load32, h0, h 1 (by omega), h 2 (by omega), h 3 (by omega)]

end Frame

/-! ## Blocks that agree on a range -/

/-- Two blocks hold the same `n` bytes at an offset. -/
def Agree (m m' : Memory) (off n : ℕ) : Prop := ∀ i < n, m (off + i) = m' (off + i)

section Agree

variable {m m' m'' : Memory} {off n p k : ℕ}

theorem Agree.refl (m : Memory) (off n : ℕ) : Agree m m off n := fun _ _ => rfl

theorem Agree.trans (h : Agree m m' off n) (h' : Agree m' m'' off n) :
    Agree m m'' off n := fun i hi => (h i hi).trans (h' i hi)

/-- A store outside a range does not change it. -/
theorem agree_storeBytes (m bytes : Memory) (h : p + k ≤ off ∨ off + n ≤ p) :
    Agree (storeBytes m off n bytes) m p k := by
  intro i hi
  rcases h with h | h
  · exact storeBytes_of_lt (by omega)
  · exact storeBytes_of_ge (by omega)

theorem Agree.load16 (h : Agree m m' off 2) : load16 m off = load16 m' off :=
  load16_congr (h 0 (by omega)) (h 1 (by omega))

theorem Agree.load32 (h : Agree m m' off 4) : load32 m off = load32 m' off :=
  load32_congr h

/-- Part of a range that agrees. -/
theorem Agree.sub (h : Agree m m' off n) (hlo : off ≤ p) (hhi : p + k ≤ off + n) :
    Agree m m' p k := by
  intro i hi
  have := h (p + i - off) (by omega)
  rwa [show off + (p + i - off) = p + i from by omega] at this

end Agree

/-! ## Reading back what was stored -/

theorem load16_bytes16 (v : UInt16) : load16 (bytes16 v) 0 = v := by
  have hv := v.toNat_lt
  rw [← UInt16.toNat_inj]
  simp only [load16, bytes16, UInt16.toNat_add, UInt16.toNat_mul, UInt8.toNat_toUInt16,
    UInt16.toNat_toUInt8, UInt16.toNat_div, UInt16.toNat_ofNat, if_true, Nat.zero_add,
    Nat.one_ne_zero, if_false, Nat.reducePow, Nat.reduceMod]
  omega

theorem load32_bytes32 (v : UInt32) : load32 (bytes32 v) 0 = v := by
  have hv := v.toNat_lt
  rw [← UInt32.toNat_inj]
  simp only [load32, bytes32, UInt32.toNat_add, UInt32.toNat_mul, UInt8.toNat_toUInt32,
    UInt32.toNat_toUInt8, UInt32.toNat_div, UInt32.toNat_ofNat, if_true, Nat.zero_add,
    Nat.one_ne_zero, if_false, Nat.reducePow, Nat.reduceMod, Nat.reduceEqDiff]
  omega

@[simp] theorem load16_store16 (m : Memory) (off : ℕ) (v : UInt16) :
    load16 (store16 m off v) off = v := by
  conv_rhs => rw [← load16_bytes16 v]
  have h0 : storeBytes m off 2 (bytes16 v) (off + 0) = bytes16 v 0 :=
    storeBytes_add (by omega)
  have h1 : storeBytes m off 2 (bytes16 v) (off + 1) = bytes16 v 1 :=
    storeBytes_add (by omega)
  rw [Nat.add_zero] at h0
  rw [load16, load16, store16, h0, h1]

@[simp] theorem load32_store32 (m : Memory) (off : ℕ) (v : UInt32) :
    load32 (store32 m off v) off = v := by
  conv_rhs => rw [← load32_bytes32 v]
  have h0 : storeBytes m off 4 (bytes32 v) (off + 0) = bytes32 v 0 :=
    storeBytes_add (by omega)
  rw [Nat.add_zero] at h0
  rw [load32, load32, store32, h0, storeBytes_add (by omega), storeBytes_add (by omega),
    storeBytes_add (by omega)]

/-! ## Numbers of any width -/

/-- The number in the `n` bytes at an offset. -/
def loadNat (m : Memory) (off : ℕ) : ℕ → ℕ
  | 0 => 0
  | n + 1 => (m off).toNat + 256 * loadNat m (off + 1) n

/-- The bytes of a number. -/
def bytesNat (v : ℕ) : Memory := fun i => UInt8.ofNat (v / 256 ^ i)

/-- Store the `n` low bytes of a number. -/
def storeNat (m : Memory) (off n v : ℕ) : Memory := storeBytes m off n (bytesNat v)

theorem loadNat_congr {m m' : Memory} {n : ℕ} :
    ∀ {off : ℕ}, Agree m m' off n → loadNat m off n = loadNat m' off n := by
  induction n with
  | zero => exact fun _ => rfl
  | succ n ih =>
    intro off h
    have hfirst := h 0 (Nat.succ_pos n)
    rw [Nat.add_zero] at hfirst
    rw [loadNat, loadNat, hfirst, ih (h.sub (Nat.le_succ off) (by omega))]

theorem loadNat_of_bytes {m : Memory} {n : ℕ} : ∀ {off v : ℕ},
    (∀ i < n, m (off + i) = bytesNat v i) → loadNat m off n = v % 256 ^ n := by
  induction n with
  | zero => exact fun {off v} _ => (Nat.mod_one v).symm
  | succ n ih =>
    intro off v h
    have hfirst : m off = UInt8.ofNat v := by
      simpa [bytesNat] using h 0 (Nat.succ_pos n)
    have hrest : loadNat m (off + 1) n = v / 256 % 256 ^ n := by
      refine ih (fun i hi => ?_)
      have hbyte := h (i + 1) (Nat.succ_lt_succ hi)
      rw [bytesNat, pow_succ', ← Nat.div_div_eq_div_mul] at hbyte
      rwa [Nat.add_assoc, Nat.add_comm 1 i]
    rw [loadNat, hfirst, hrest, pow_succ', Nat.mod_mul, UInt8.toNat_ofNat']

/-- **What was stored is read back**, as far as it fits. -/
theorem loadNat_storeNat (m : Memory) (off n v : ℕ) :
    loadNat (storeNat m off n v) off n = v % 256 ^ n :=
  loadNat_of_bytes (fun _ hi => storeBytes_add hi)

/-- A 32-bit word is the number in its bytes. -/
theorem load32_eq_ofNat (m : Memory) (off : ℕ) :
    load32 m off = UInt32.ofNat (loadNat m off 4) := by
  have hload : loadNat m off 4 = (m off).toNat + 256 * ((m (off + 1)).toNat
      + 256 * ((m (off + 2)).toNat + 256 * ((m (off + 3)).toNat + 256 * 0))) := rfl
  have h0 := (m off).toNat_lt
  have h1 := (m (off + 1)).toNat_lt
  have h2 := (m (off + 2)).toNat_lt
  have h3 := (m (off + 3)).toNat_lt
  rw [← UInt32.toNat_inj, hload]
  simp only [load32, UInt32.toNat_add, UInt32.toNat_mul, UInt8.toNat_toUInt32,
    UInt32.toNat_ofNat, UInt32.toNat_ofNat']
  omega
