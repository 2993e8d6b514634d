/-
Address blocks as bit vectors.

A block of `2 ^ k` addresses is given by a mask that clears the `k` low bits: two
addresses lie in one block when they agree under the mask. The first address of
the block has its low bits clear, the last one has them set, and the block is the
interval between the two. The other half of an address, its index inside the
block, is what the complement of the mask keeps.
-/
import Mathlib.Data.Nat.Bitwise

set_option autoImplicit false

namespace StreamGuard.Lib

variable {w : ℕ}

/-- Clears the `k` low bits. -/
def highMask (w k : ℕ) : BitVec w := BitVec.allOnes w <<< k

/-- Keeps the `k` low bits, for `k < w`. -/
def lowMask (w k : ℕ) : BitVec w := ((1 : BitVec w) <<< k) - 1

/-! ## Bits of the masks -/

@[simp] theorem getLsbD_highMask (w k i : ℕ) :
    (highMask w k).getLsbD i = (decide (k ≤ i) && decide (i < w)) := by
  rw [highMask, BitVec.getLsbD_shiftLeft, BitVec.getLsbD_allOnes]
  by_cases hi : i < w
  · by_cases hk : k ≤ i
    · have hlow : i - k < w := by omega
      simp [hi, hk, hlow]
    · have hlow : i < k := by omega
      simp [hk, hlow]
  · simp [hi]

theorem toNat_lowMask {k : ℕ} (hk : k < w) : (lowMask w k).toNat = 2 ^ k - 1 := by
  have hpow : 2 ^ k < 2 ^ w := Nat.pow_lt_pow_right (by omega) hk
  have hone : 1 ≤ 2 ^ k := Nat.one_le_two_pow
  have hshift : ((1 : BitVec w) <<< k).toNat = 2 ^ k := by
    have hw : 1 % 2 ^ w = 1 := Nat.mod_eq_of_lt (by omega)
    rw [BitVec.toNat_shiftLeft, Nat.shiftLeft_eq]
    simp only [BitVec.ofNat_eq_ofNat, BitVec.toNat_ofNat, hw, Nat.one_mul]
    exact Nat.mod_eq_of_lt hpow
  have hle : (1 : BitVec w) ≤ (1 : BitVec w) <<< k := by
    rw [BitVec.le_def, hshift]
    simpa using (Nat.mod_le 1 (2 ^ w)).trans hone
  rw [lowMask, BitVec.toNat_sub_of_le hle, hshift]
  simp only [BitVec.ofNat_eq_ofNat, BitVec.toNat_ofNat]
  rw [Nat.mod_eq_of_lt (by omega)]

theorem getLsbD_lowMask {k i : ℕ} (hk : k < w) : (lowMask w k).getLsbD i = decide (i < k) := by
  rw [BitVec.getLsbD, toNat_lowMask hk, Nat.testBit_two_pow_sub_one]

/-! ## Masked values -/

theorem toNat_and_lowMask {k : ℕ} (hk : k < w) (v : BitVec w) :
    (v &&& lowMask w k).toNat = v.toNat % 2 ^ k := by
  rw [BitVec.toNat_and, toNat_lowMask hk, Nat.and_two_pow_sub_one_eq_mod]

theorem toNat_and_highMask (k : ℕ) (v : BitVec w) :
    (v &&& highMask w k).toNat = v.toNat / 2 ^ k * 2 ^ k := by
  rw [← Nat.shiftRight_eq_div_pow, ← Nat.shiftLeft_eq]
  apply Nat.eq_of_testBit_eq
  intro i
  change (v &&& highMask w k).getLsbD i = _
  rw [BitVec.getLsbD_and, getLsbD_highMask, Nat.testBit_shiftLeft, Nat.testBit_shiftRight]
  by_cases hk : k ≤ i
  · have hsum : k + (i - k) = i := by omega
    by_cases hi : i < w
    · simp [hk, hi, hsum, BitVec.getLsbD]
    · have hzero : v.toNat.testBit i = false := BitVec.getLsbD_of_ge v i (by omega)
      simp [hi, hsum, hzero]
  · simp [hk]

/-- **A block is an interval.** What lies between the first and the last address of
a block agrees with the first one under the mask. -/
theorem and_highMask_of_between {k : ℕ} {first v : BitVec w} (hfirst : first &&& highMask w k = first)
    (hle : first.toNat ≤ v.toNat) (hge : v.toNat ≤ (first ||| ~~~(highMask w k)).toNat) :
    v &&& highMask w k = first := by
  have hlast : (first ||| ~~~(highMask w k)) &&& highMask w k = first := by
    apply BitVec.eq_of_getLsbD_eq
    intro i hi
    have hbit := congrArg (fun b => b.getLsbD i) hfirst
    simp only [BitVec.getLsbD_and, getLsbD_highMask] at hbit
    simp only [BitVec.getLsbD_and, BitVec.getLsbD_or, BitVec.getLsbD_not, getLsbD_highMask]
    by_cases hk : k ≤ i
    · simp [hk, hi]
    · simpa [hk] using hbit
  have hfirst' := congrArg BitVec.toNat hfirst
  have hlast' := congrArg BitVec.toNat hlast
  rw [toNat_and_highMask] at hfirst' hlast'
  apply BitVec.eq_of_toNat_eq
  rw [toNat_and_highMask]
  apply Nat.le_antisymm
  · calc v.toNat / 2 ^ k * 2 ^ k
        ≤ (first ||| ~~~(highMask w k)).toNat / 2 ^ k * 2 ^ k :=
          Nat.mul_le_mul_right _ (Nat.div_le_div_right hge)
      _ = first.toNat := hlast'
  · calc first.toNat = first.toNat / 2 ^ k * 2 ^ k := hfirst'.symm
      _ ≤ v.toNat / 2 ^ k * 2 ^ k := Nat.mul_le_mul_right _ (Nat.div_le_div_right hle)

/-- The last address of a block. -/
theorem toNat_block_last {k : ℕ} {first : BitVec w} (hk : k ≤ w)
    (hfirst : first &&& highMask w k = first) :
    (first ||| ~~~(highMask w k)).toNat = first.toNat + (2 ^ k - 1) := by
  have hlow : (~~~(highMask w k)).toNat = 2 ^ k - 1 := by
    apply Nat.eq_of_testBit_eq
    intro i
    rw [Nat.testBit_two_pow_sub_one]
    change (~~~(highMask w k)).getLsbD i = _
    rw [BitVec.getLsbD_not, getLsbD_highMask]
    by_cases hi : i < k
    · have hw : i < w := by omega
      simp [hi, hw]
    · simp [hi, Nat.le_of_not_lt hi]
  have hbase := congrArg BitVec.toNat hfirst
  rw [toNat_and_highMask] at hbase
  have hpow : 0 < 2 ^ k := Nat.two_pow_pos k
  rw [BitVec.toNat_or, hlow, ← hbase, ← Nat.shiftLeft_eq,
    Nat.shiftLeft_add_eq_or_of_lt (by omega)]

/-- **And the interval is no larger than the block.** -/
theorem between_of_and_highMask {k : ℕ} {first v : BitVec w} (hk : k ≤ w)
    (h : v &&& highMask w k = first) :
    first.toNat ≤ v.toNat ∧ v.toNat ≤ (first ||| ~~~(highMask w k)).toNat := by
  have hfirst : first &&& highMask w k = first := by
    rw [← h, BitVec.and_assoc, BitVec.and_self]
  have hnat := congrArg BitVec.toNat h
  rw [toNat_and_highMask] at hnat
  have hdiv := Nat.div_add_mod v.toNat (2 ^ k)
  have hmod := Nat.mod_lt v.toNat (Nat.two_pow_pos k)
  rw [Nat.mul_comm] at hdiv
  rw [toNat_block_last hk hfirst]
  omega

/-- An address is its block address and its index in the block. -/
theorem block_index (k : ℕ) (hk : k < w) (v : BitVec w) :
    (v &&& highMask w k) ||| (v &&& lowMask w k) = v := by
  apply BitVec.eq_of_getLsbD_eq
  intro i hi
  simp only [BitVec.getLsbD_or, BitVec.getLsbD_and, getLsbD_highMask, getLsbD_lowMask hk]
  by_cases hlow : i < k
  · simp [hlow]
  · simp [Nat.le_of_not_lt hlow, hi]

/-- A block address and an index below the block size are read back from their
sum. -/
theorem compose_block {k : ℕ} (hk : k < w) (base index : BitVec w) :
    ((base &&& highMask w k) ||| (index &&& lowMask w k)) &&& highMask w k = base &&& highMask w k ∧
    ((base &&& highMask w k) ||| (index &&& lowMask w k)) &&& lowMask w k =
      index &&& lowMask w k := by
  refine ⟨?_, ?_⟩
  · apply BitVec.eq_of_getLsbD_eq
    intro i hi
    simp only [BitVec.getLsbD_and, BitVec.getLsbD_or, getLsbD_highMask, getLsbD_lowMask hk]
    by_cases hlow : i < k
    · simp [Nat.not_le.mpr hlow]
    · simp [hlow]
  · apply BitVec.eq_of_getLsbD_eq
    intro i hi
    simp only [BitVec.getLsbD_and, BitVec.getLsbD_or, getLsbD_highMask, getLsbD_lowMask hk]
    by_cases hlow : i < k
    · simp [hlow, Nat.not_le.mpr hlow]
    · simp [hlow]

end StreamGuard.Lib
