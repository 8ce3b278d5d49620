import Metamalloc.Heaps.SizeClasses

/-! `HeapBase`: aligned allocation on top of the `allocate` of whatever heap derives from it. -/
namespace Metamalloc.Heaps
open Library.Word64

abbrev minimumAlignment : Nat := 16

namespace HeapBase
variable {σ : Type} (allocate : Nat → σ → Option (Nat × σ))

def alignedPointer (ptr alignment : Nat) : Nat :=
  let offset := sub64 alignment (moduloPow2 ptr alignment)
  add64 ptr offset

def underlyingSize (size alignment : Nat) : Nat :=
  if alignment ≤ minimumAlignment then size else add64 size alignment

def alignedAnswer (ptr alignment : Nat) : Nat :=
  if alignment ≤ minimumAlignment then ptr else alignedPointer ptr alignment

def allocateAligned (size alignment : Nat) (s : σ) : Option (Nat × σ) :=
  if alignment ≤ minimumAlignment then allocate size s
  else
    let adjustedSize := add64 size alignment
    (allocate adjustedSize s).map fun (ptr, s) => (alignedPointer ptr alignment, s)

end HeapBase

section
variable {σ : Type} {allocate : Nat → σ → Option (Nat × σ)} {s s' : σ} {size p k alignment : Nat}

theorem allocateAligned_eq (h : allocate (HeapBase.underlyingSize size alignment) s = some (p, s')) :
    HeapBase.allocateAligned allocate size alignment s = some (HeapBase.alignedAnswer p alignment, s') := by
  simp only [HeapBase.underlyingSize] at h
  simp only [HeapBase.allocateAligned, HeapBase.alignedAnswer]
  split at h
  · rename_i hle
    rw [if_pos hle, if_pos hle, h]
  · rename_i hle
    rw [if_neg hle, if_neg hle, h, Option.map_some]

theorem moduloPow2_two_pow (p k : Nat) : moduloPow2 p (2^k) = p % 2^k :=
  Nat.and_two_pow_sub_one_eq_mod p k

/-- The offset is never zero: an aligned pointer moves on by a whole alignment. -/
theorem alignedPointer_eq (hk : k < 64) (h : p + 2^k < 2^64) :
    HeapBase.alignedPointer p (2^k) = p + (2^k - p % 2^k) := by
  have hmod : p % 2^k < 2^k := Nat.mod_lt _ (Nat.two_pow_pos k)
  have hpow : 2^k < 2^64 := Nat.pow_lt_pow_right (by decide) hk
  rw [HeapBase.alignedPointer, moduloPow2_two_pow, sub64_of_le hmod.le hpow, add64_of_lt (by omega)]

theorem alignedPointer_bounds (hk : k < 64) (h : p + 2^k < 2^64) :
    p < HeapBase.alignedPointer p (2^k) ∧ HeapBase.alignedPointer p (2^k) ≤ p + 2^k := by
  have hmod : p % 2^k < 2^k := Nat.mod_lt _ (Nat.two_pow_pos k)
  rw [alignedPointer_eq hk h]
  omega

/-- In the last stretch of the address space the next multiple is null. -/
theorem alignedPointer_eq_zero_iff (hk : k < 64) (hp : p < 2^64) :
    HeapBase.alignedPointer p (2^k) = 0 ↔ 2^64 ≤ p + 2^k := by
  constructor
  · intro h0
    by_contra hlt
    have := (alignedPointer_bounds hk (Nat.lt_of_not_le hlt)).1
    omega
  · intro hle
    have hmod : p % 2^k < 2^k := Nat.mod_lt _ (Nat.two_pow_pos k)
    have hpow : 2^k < 2^64 := Nat.pow_lt_pow_right (by decide) hk
    obtain ⟨m, hm⟩ : 2^k ∣ 2^64 := Nat.pow_dvd_pow 2 hk.le
    -- The next multiple above such a pointer is the end of the address space.
    have hnext : p + (2^k - p % 2^k) = 2^64 := by
      have hdiv := Nat.div_add_mod p (2^k)
      have hlo : p / 2^k < m := by
        refine Nat.div_lt_of_lt_mul ?_
        omega
      have hhi : m ≤ p / 2^k + 1 := by
        by_contra hlt
        have hmul : 2^k * (p / 2^k + 2) ≤ 2^k * m := Nat.mul_le_mul_left _ (by omega)
        rw [Nat.mul_add] at hmul
        omega
      obtain rfl : m = p / 2^k + 1 := by omega
      rw [Nat.mul_add, Nat.mul_one] at hm
      omega
    rw [HeapBase.alignedPointer, moduloPow2_two_pow, sub64_of_le hmod.le hpow, add64_of_eq hnext]

end
end Metamalloc.Heaps
