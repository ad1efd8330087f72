import Mathlib.Tactic

/-!
# One's-complement sums

The sum by which the Internet checksums are verified: the sixteen-bit words of a block,
big-endian and padded with zero, added with the carry brought back in at the end. A block
verifies when the sum is `0xffff`.

The order of the two bytes of a word does not matter to that: the sum of the words in
the other order is the same modulo `65535` up to a factor `256`, which is invertible. So
a block verifies when its little-endian sum is a multiple of `65535` other than zero
(`verifies_iff`).
-/

/-- One's-complement addition: the carry is brought back in. -/
def onesAdd (x y : ℕ) : ℕ := if x + y < 65536 then x + y else x + y - 65535

/-- The one's-complement sum of words. -/
def onesSum (words : List ℕ) : ℕ := words.foldl onesAdd 0

/-- The big-endian words of a block, padded with zero. -/
def words16 : List UInt8 → List ℕ
  | [] => []
  | [a] => [a.toNat * 256]
  | a :: b :: l => (a.toNat * 256 + b.toNat) :: words16 l

/-- **A block with a checksum in it verifies.** -/
def Verifies (block : List UInt8) : Prop := onesSum (words16 block) = 0xffff

/-- The little-endian words of a block, summed. -/
def littleSum : List UInt8 → ℕ
  | [] => 0
  | [a] => a.toNat
  | a :: b :: l => a.toNat + b.toNat * 256 + littleSum l

/-- One's-complement addition is addition modulo `65535`, and gives zero for zeros
only. -/
theorem onesAdd_spec {x y : ℕ} (hx : x ≤ 65535) (hy : y ≤ 65535) :
    onesAdd x y ≤ 65535 ∧ onesAdd x y ≡ x + y [MOD 65535]
      ∧ (onesAdd x y = 0 ↔ x + y = 0) := by
  unfold onesAdd Nat.ModEq
  split
  · exact ⟨by omega, rfl, Iff.rfl⟩
  · exact ⟨by omega, by omega, by omega⟩

/-- **A one's-complement sum is a sum modulo `65535`**, and zero for zeros only. -/
theorem onesSum_spec {words : List ℕ} (h : ∀ w ∈ words, w ≤ 65535) :
    onesSum words ≤ 65535 ∧ onesSum words ≡ words.sum [MOD 65535]
      ∧ (onesSum words = 0 ↔ words.sum = 0) := by
  have hfold : ∀ x ≤ 65535, words.foldl onesAdd x ≤ 65535
      ∧ words.foldl onesAdd x ≡ x + words.sum [MOD 65535]
      ∧ (words.foldl onesAdd x = 0 ↔ x + words.sum = 0) := by
    induction words with
    | nil => exact fun x hx => ⟨hx, rfl, Iff.rfl⟩
    | cons w words ih =>
      intro x hx
      obtain ⟨hle, hmod, hzero⟩ := onesAdd_spec hx (h w List.mem_cons_self)
      obtain ⟨hle', hmod', hzero'⟩ :=
        ih (fun v hv => h v (List.mem_cons_of_mem w hv)) (onesAdd x w) hle
      rw [List.foldl_cons, List.sum_cons, ← Nat.add_assoc]
      refine ⟨hle', hmod'.trans (hmod.add_right _), ?_⟩
      rw [hzero', Nat.add_eq_zero_iff, hzero, Nat.add_eq_zero_iff (n := x + w)]
  have h0 := hfold 0 (Nat.zero_le _)
  rwa [Nat.zero_add] at h0

theorem words16_le (block : List UInt8) : ∀ w ∈ words16 block, w ≤ 65535 := by
  induction block using words16.induct with
  | case1 => simp [words16]
  | case2 a =>
    have ha := a.toNat_lt
    simp only [words16, List.mem_singleton, forall_eq]
    omega
  | case3 a b l ih =>
    have ha := a.toNat_lt
    have hb := b.toNat_lt
    simp only [words16, List.mem_cons, forall_eq_or_imp]
    exact ⟨by omega, ih⟩

/-- The two byte orders differ by a factor `256`. -/
theorem sum_words16 (block : List UInt8) :
    (words16 block).sum ≡ 256 * littleSum block [MOD 65535]
      ∧ ((words16 block).sum = 0 ↔ littleSum block = 0) := by
  induction block using words16.induct with
  | case1 => exact ⟨rfl, Iff.rfl⟩
  | case2 a =>
    rw [words16, littleSum, List.sum_singleton, Nat.mul_comm]
    exact ⟨rfl, by omega⟩
  | case3 a b l ih =>
    rw [words16, littleSum, List.sum_cons]
    refine ⟨?_, by omega⟩
    have hword : a.toNat * 256 + b.toNat ≡ 256 * (a.toNat + b.toNat * 256) [MOD 65535] := by
      unfold Nat.ModEq
      omega
    rw [Nat.mul_add]
    exact hword.add ih.1

/-- **A block verifies when its little-endian sum is a multiple of `65535`**, and not
zero. -/
theorem verifies_iff (block : List UInt8) :
    Verifies block ↔ littleSum block ≠ 0 ∧ 65535 ∣ littleSum block := by
  obtain ⟨hle, hmod, hzero⟩ := onesSum_spec (words16_le block)
  obtain ⟨hmod', hzero'⟩ := sum_words16 block
  have hall : onesSum (words16 block) ≡ 256 * littleSum block [MOD 65535] := hmod.trans hmod'
  have hdvd : 65535 ∣ onesSum (words16 block) ↔ 65535 ∣ littleSum block := by
    rw [hall.dvd_iff dvd_rfl]
    exact Nat.Coprime.dvd_mul_left (by decide)
  rw [Verifies, ← hdvd, Ne, ← hzero', ← hzero]
  constructor
  · intro h
    rw [h]
    exact ⟨by decide, dvd_rfl⟩
  · rintro ⟨hne, hd⟩
    exact le_antisymm hle (Nat.le_of_dvd (Nat.pos_of_ne_zero hne) hd)

/-- Blocks are summed one after the other if the first is of even length. -/
theorem littleSum_append {a : List UInt8} (h : Even a.length) (b : List UInt8) :
    littleSum (a ++ b) = littleSum a + littleSum b := by
  induction a using words16.induct with
  | case1 => simp [littleSum]
  | case2 x => exact absurd h (by simp)
  | case3 x y l ih =>
    have hl : Even l.length := by
      simpa [Nat.even_add_one] using h
    rw [List.cons_append, List.cons_append, littleSum, littleSum, ih hl]
    exact (Nat.add_assoc _ _ _).symm
