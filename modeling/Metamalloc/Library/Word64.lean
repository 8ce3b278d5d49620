import Mathlib.Data.Nat.Bitwise
import Mathlib.Tactic.Ring

/-! Unsigned 64-bit arithmetic on naturals.
A word is a natural below `2^64`; sums and differences wrap. The operations are
irreducible, so that unification never computes with `2^64` in unary. -/
namespace Metamalloc.Library.Word64

@[irreducible] def add64 (a b : Nat) : Nat := (a + b) % 2^64
@[irreducible] def sub64 (a b : Nat) : Nat := (a + (2^64 - b % 2^64)) % 2^64
@[irreducible] def mul64 (a b : Nat) : Nat := (a * b) % 2^64

/-- The mask `~(size - 1)` of a 64-bit machine, for a positive size. -/
def mask64 (size : Nat) : Nat := 2^64 - size

theorem add64_of_lt {a b : Nat} (h : a + b < 2^64) : add64 a b = a + b := by
  unfold add64
  exact Nat.mod_eq_of_lt h

theorem add64_of_eq {a b : Nat} (h : a + b = 2^64) : add64 a b = 0 := by
  unfold add64
  rw [h, Nat.mod_self]

theorem sub64_of_le {a b : Nat} (hb : b ≤ a) (ha : a < 2^64) : sub64 a b = a - b := by
  unfold sub64
  omega

theorem mul64_of_lt {a b : Nat} (h : a * b < 2^64) : mul64 a b = a * b := by
  unfold mul64
  exact Nat.mod_eq_of_lt h

private theorem mask64_two_pow {k : Nat} (hk : k ≤ 64) : mask64 (2^k) = (2^(64-k) - 1) <<< k := by
  rw [mask64, Nat.shiftLeft_eq, Nat.sub_mul, ← pow_add, Nat.sub_add_cancel hk, one_mul]

/-- Masking with a power of two rounds down to a multiple of it. -/
theorem and_mask64 {k p : Nat} (hk : k ≤ 64) (hp : p < 2^64) :
    p &&& mask64 (2^k) = p / 2^k * 2^k := by
  rw [mask64_two_pow hk, ← Nat.shiftLeft_eq, ← Nat.shiftRight_eq_div_pow]
  apply Nat.eq_of_testBit_eq
  intro i
  simp only [Nat.testBit_and, Nat.testBit_shiftLeft, Nat.testBit_two_pow_sub_one,
    Nat.testBit_shiftRight]
  by_cases hki : k ≤ i
  · by_cases hi : i < 64
    · simp [hki, show i - k < 64 - k by omega]
    · have hz : p.testBit i = false :=
        Nat.testBit_lt_two_pow (hp.trans_le (Nat.pow_le_pow_right (by norm_num) (by omega)))
      simp [hki, hz]
  · simp [hki]

/-- The multiple below an address inside an aligned block is the block's start. -/
theorem and_mask64_of_mem {k a p : Nat} (hk : k ≤ 64) (hp : p < 2^64)
    (ha : 2^k ∣ a) (hlo : a ≤ p) (hhi : p < a + 2^k) : p &&& mask64 (2^k) = a := by
  rw [and_mask64 hk hp]
  obtain ⟨q, rfl⟩ := ha
  have hq : p / 2^k = q := by
    apply Nat.div_eq_of_lt_le
    · rwa [Nat.mul_comm]
    · rw [Nat.succ_mul, Nat.mul_comm q]
      exact hhi
  rw [hq, Nat.mul_comm]

end Metamalloc.Library.Word64
