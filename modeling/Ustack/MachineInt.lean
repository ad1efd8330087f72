import Mathlib.Tactic

/-!
# The integer types of a C program

On the machines the code is written for an `int` has 32 bits and `size_t`,
`unsigned long` and addresses have 64. The conversions between them are named
here, and one relation says when arithmetic on them is arithmetic of natural
numbers: `IntIs x n`, an `int` that holds the natural number `n`. Sums, products
and quotients of such values hold the sum, product and quotient as long as that
is still an `int`.
-/

/-- The conversion of an `int` to a 64-bit unsigned type. -/
def sizeOfInt (x : Int32) : UInt64 := x.toInt64.toUInt64

/-- The conversion of a 64-bit unsigned value to `int`. -/
def intOfSize (x : UInt64) : Int32 := x.toInt64.toInt32

/-- `INT_MAX`. -/
def intMax : ℕ := 2147483647

/-- **An `int` holds a natural number.** -/
def IntIs (x : Int32) (n : ℕ) : Prop := x.toInt = n

namespace IntIs

variable {x y : Int32} {m n : ℕ}

theorem le_intMax (h : IntIs x n) : n ≤ intMax := by
  have hlt : x.toInt < 2 ^ 31 := x.toInt_lt
  rw [h] at hlt
  unfold intMax
  omega

/-- A value that is not negative holds a number. -/
theorem of_nonneg (h : 0 ≤ x) : IntIs x x.toInt.toNat := by
  rw [Int32.le_iff_toInt_le] at h
  exact (Int.toNat_of_nonneg h).symm

/-- A number that fits. -/
theorem ofNat (h : n ≤ intMax) : IntIs (Int32.ofNat n) n := by
  unfold intMax at h
  exact Int32.toInt_ofNat_of_lt (by omega)

theorem lt_iff (hx : IntIs x m) (hy : IntIs y n) : x < y ↔ m < n := by
  rw [Int32.lt_iff_toInt_lt, hx, hy, Nat.cast_lt]

theorem le_iff (hx : IntIs x m) (hy : IntIs y n) : x ≤ y ↔ m ≤ n := by
  rw [Int32.le_iff_toInt_le, hx, hy, Nat.cast_le]

/-- What an `int` computes is what the integers compute, as far as it fits. -/
theorem bmod_eq {k : ℤ} (h0 : 0 ≤ k) (h : k ≤ intMax) : k.bmod (2 ^ 32) = k := by
  unfold intMax at h
  rw [Int.bmod_eq_of_le (by omega) (by omega)]

theorem add (hx : IntIs x m) (hy : IntIs y n) (h : m + n ≤ intMax) : IntIs (x + y) (m + n) := by
  have hk : (m : ℤ) + n ≤ intMax := by exact_mod_cast h
  rw [IntIs, Int32.toInt_add, hx, hy, bmod_eq (by omega) hk]
  push_cast
  rfl

theorem mul (hx : IntIs x m) (hy : IntIs y n) (h : m * n ≤ intMax) : IntIs (x * y) (m * n) := by
  have hk : (m : ℤ) * n ≤ intMax := by exact_mod_cast h
  rw [IntIs, Int32.toInt_mul, hx, hy, bmod_eq (by positivity) hk]
  push_cast
  rfl

theorem div (hx : IntIs x m) (hy : IntIs y n) : IntIs (x / y) (m / n) := by
  have hm := hx.le_intMax
  have hk : ((m / n : ℕ) : ℤ) ≤ intMax := by exact_mod_cast (Nat.div_le_self m n).trans hm
  rw [IntIs, Int32.toInt_div, hx, hy, ← Int.ofNat_tdiv, bmod_eq (Int.natCast_nonneg _) hk]

theorem mod (hx : IntIs x m) (hy : IntIs y n) : IntIs (x % y) (m % n) := by
  rw [IntIs, Int32.toInt_mod, hx, hy, Int.ofNat_tmod]

/-- Equal numbers are held by equal values. -/
theorem inj (hx : IntIs x n) (hy : IntIs y n) : x = y :=
  Int32.toInt_inj.mp (hx.trans hy.symm)

/-- A number that is not negative converts to itself. -/
theorem toNat_sizeOfInt (hx : IntIs x n) : (sizeOfInt x).toNat = n := by
  have hpos : 0 ≤ x.toInt64 := by
    rw [Int64.le_iff_toInt_le, Int32.toInt_toInt64, hx]
    exact Int.natCast_nonneg n
  rw [sizeOfInt, Int64.toNat_toUInt64_of_le hpos, ← Int64.toNat_toInt, Int32.toInt_toInt64, hx,
    Int.toNat_natCast]

end IntIs

/-- What is left of a size converted to `int`. -/
theorem toInt_intOfSize {x : UInt64} (h : x.toNat < 2 ^ 63) :
    (intOfSize x).toInt = (x.toNat : ℤ).bmod (2 ^ 32) := by
  have hx : x.toInt64.toInt = x.toNat := by
    show x.toBitVec.toInt = (x.toBitVec.toNat : ℤ)
    have h' : x.toBitVec.toNat < 2 ^ 63 := h
    exact BitVec.toInt_eq_toNat_of_lt (by omega)
  rw [intOfSize, Int64.toInt_toInt32, hx]

/-- A size that fits converts to itself. -/
theorem intIs_intOfSize {x : UInt64} (h : x.toNat ≤ intMax) : IntIs (intOfSize x) x.toNat := by
  have hk : (x.toNat : ℤ) ≤ intMax := by exact_mod_cast h
  have hlt : intMax < 2 ^ 63 := by decide
  rw [IntIs, toInt_intOfSize (by omega), IntIs.bmod_eq (Int.natCast_nonneg _) hk]

/-- The offset of an address in a region is what was added to its start. -/
theorem address_sub_start (start off : UInt64) : start + off - start = off := by
  rw [UInt64.add_comm, UInt64.add_sub_cancel]
