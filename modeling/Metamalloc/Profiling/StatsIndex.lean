import Mathlib.Data.Nat.Log
import Mathlib.Order.Bounds.Basic
import Metamalloc.Profiling.Profiler

/-! The index of a size: the size is rounded up to a power of two, and the index is the logarithm of that. -/
namespace Metamalloc.Profiling
open Library.Word64 Heaps Profiler

section
variable {size k : Nat}

/-- The power of two that a size is to be rounded up to. -/
theorem size_le_two_pow_iff (h1 : 1 < size) : size ≤ 2^k ↔ Nat.log2 (size - 1) + 1 ≤ k := by
  rw [Nat.succ_le_iff, Nat.log2_lt (by omega)]
  omega

theorem clog_eq (h1 : 1 < size) : Nat.clog 2 size = Nat.log2 (size - 1) + 1 := by
  refine eq_of_forall_ge_iff fun k => ?_
  rw [Nat.clog_le_iff_le_pow one_lt_two, size_le_two_pow_iff h1]

/-- The result is the power of two that it should be, or not a power of two at all. -/
theorem isLeast_getFirstPow2Of_iff (h1 : 1 < size) (h63 : size ≤ 2^63) :
    IsLeast {p | (∃ k, p = 2^k) ∧ size ≤ p} (getFirstPow2Of size) ↔
      getFirstPow2Of size = 2^(Nat.log2 (size - 1) + 1) := by
  constructor
  · rintro ⟨⟨⟨k, hk⟩, hle⟩, -⟩
    rw [hk, size_le_two_pow_iff h1] at hle
    have hge := (getFirstPow2Of_le h1 h63).2
    rw [hk] at hge ⊢
    exact Nat.le_antisymm hge (Nat.pow_le_pow_right (by decide) hle)
  · intro heq
    rw [heq]
    refine ⟨⟨⟨_, rfl⟩, (size_le_two_pow_iff h1).mpr le_rfl⟩, ?_⟩
    rintro p ⟨⟨k, rfl⟩, hle⟩
    exact Nat.pow_le_pow_right (by decide) ((size_le_two_pow_iff h1).mp hle)

theorem findStatsIndexFromSize_eq_clog_iff (h1 : 1 < size) (h63 : size ≤ 2^63) :
    findStatsIndexFromSize size = Nat.clog 2 size ↔
      getFirstPow2Of size = 2^(Nat.log2 (size - 1) + 1) := by
  have hle := (getFirstPow2Of_le h1 h63).2
  have hlog : Nat.log2 (size - 1) < 63 := (Nat.log2_lt (by omega)).mpr (by omega)
  have hpow : 2^(Nat.log2 (size - 1) + 1) ≤ 2^63 := Nat.pow_le_pow_right (by decide) hlog
  have hne : getFirstPow2Of size ≠ 0 := by
    rw [(getFirstPow2Of_le h1 h63).1]
    exact Nat.succ_ne_zero _
  rw [findStatsIndexFromSize, log2_eq (by omega), clog_eq h1]
  constructor
  · intro heq
    exact Nat.le_antisymm hle ((Nat.le_log2 hne).mp heq.ge)
  · intro heq
    rw [heq, Nat.log2_two_pow]

/-- Up to `2^32` the index of a size is the least exponent of a power of two that is not below it. -/
theorem findStatsIndexFromSize_le_iff (h0 : 0 < size) (h32 : size ≤ 2^32) :
    findStatsIndexFromSize size ≤ k ↔ size ≤ 2^k := by
  have hindex : findStatsIndexFromSize size = Nat.clog 2 size := by
    rcases Nat.lt_or_ge 1 size with h1 | h1
    · exact (findStatsIndexFromSize_eq_clog_iff h1 (by omega)).mpr (getFirstPow2Of_eq h1 h32)
    · obtain rfl : size = 1 := by omega
      decide +kernel
  rw [hindex, Nat.clog_le_iff_le_pow one_lt_two]

/-- Rounding up gives the least power of two that is not below the size, and the index is the logarithm rounded up,
just when the size less one has no 32 zero bits in a row below its highest bit. -/
theorem rounding_up_iff (size : Nat) (h0 : 1 ≤ size) (h63 : size ≤ 2^63) :
    (IsLeast {p | (∃ k, p = 2^k) ∧ size ≤ p} (getFirstPow2Of size) ↔ NoInnerZeroRun (size - 1)) ∧
    (findStatsIndexFromSize size = Nat.clog 2 size ↔ NoInnerZeroRun (size - 1)) := by
  rcases Nat.lt_or_ge 1 size with h1 | h1
  · rw [isLeast_getFirstPow2Of_iff h1 h63, findStatsIndexFromSize_eq_clog_iff h1 h63, getFirstPow2Of_eq_iff h1 h63]
    exact ⟨Iff.rfl, Iff.rfl⟩
  · obtain rfl : size = 1 := by omega
    have hrun : NoInnerZeroRun (1 - 1) := noInnerZeroRun_of_lt (by decide)
    refine ⟨iff_of_true ⟨⟨⟨0, rfl⟩, le_rfl⟩, fun p hp => hp.2⟩ hrun, iff_of_true ?_ hrun⟩
    decide +kernel

end

/-- A power of two that needs more than 32 bits. -/
theorem rounding_up_of_two_pow :
    IsLeast {p | (∃ k, p = 2^k) ∧ 2^40 ≤ p} (getFirstPow2Of (2^40)) ∧ findStatsIndexFromSize (2^40) = 40 := by
  have hrun : NoInnerZeroRun (2^40 - 1) := by
    intro i hi
    refine ⟨0, by decide, ?_⟩
    rw [Nat.add_zero, Nat.testBit_two_pow_sub_one, decide_eq_true_eq]
    by_contra hle
    have hpow : 2^40 ≤ 2^i := Nat.pow_le_pow_right (by decide) (Nat.le_of_not_lt hle)
    omega
  obtain ⟨hround, hindex⟩ := rounding_up_iff (2^40) (by decide) (by decide)
  exact ⟨hround.mpr hrun, (hindex.mpr hrun).trans (Nat.clog_pow 2 40 one_lt_two)⟩

/-- Behind `2^32` the lowest bit is not reached: the result is no power of two, and the index is one too small. -/
theorem rounding_up_behind_two_pow_32 : getFirstPow2Of (2^32 + 1) = 2^33 - 1 ∧ (¬ ∃ k, 2^33 - 1 = 2^k) ∧
    findStatsIndexFromSize (2^32 + 1) = 32 ∧ Nat.clog 2 (2^32 + 1) = 33 := by
  refine ⟨by decide +kernel, ?_, by decide +kernel, ?_⟩
  · rintro ⟨k, hk⟩
    cases k with
    | zero => cases hk
    | succ k =>
      rw [Nat.pow_succ] at hk
      omega
  · rw [clog_eq (by decide)]
    decide +kernel

end Metamalloc.Profiling
