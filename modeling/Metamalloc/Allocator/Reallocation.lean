import Metamalloc.Allocator.DeallocationRouting
import Metamalloc.Heaps.AlignedRuns

/-! The wrappers that stand in for the calls of the C library, over `allocate` and `deallocate`. -/
namespace Metamalloc.Allocator
open Library.Word64 Library.ByteMemory Library.LinkedList Pages Segments Heaps

namespace ScalableAllocator
variable (A : AllocatorType)

def memset (address size : Nat) (mem : Memory) : Memory := { mem with bytes := fill mem.bytes address size 0 }

def memcpy (destination source size : Nat) (mem : Memory) : Memory :=
  { mem with bytes := copy mem.bytes destination source size }

/-- The size of the array is a product of machine words. -/
def allocateAndZeroMemory (answers : CallAnswers) (thread num size : Nat) (a : ScalableAllocator) (mem : Memory) :
    Option (Nat × ScalableAllocator × Memory) :=
  let totalSize := mul64 num size
  match allocate A answers thread totalSize a mem with
  | none => none
  | some (ret, _, a, mem) => some (ret, a, if ret ≠ 0 then memset ret totalSize mem else mem)

/-- `reallocate` and `aligned_reallocate`, for the allocation of either. -/
def reallocateWith (allocation : ScalableAllocator → Memory → Option (Nat × Bool × ScalableAllocator × Memory))
    (ptr size : Nat) (a : ScalableAllocator) (mem : Memory) : Option (Nat × ScalableAllocator × Memory) :=
  if ptr = 0 then (allocation a mem).map fun (ret, _, a, mem) => (ret, a, mem)
  else if size = 0 then (deallocate A ptr a mem).map fun (a, mem) => (0, a, mem)
  else
    match getUsableSize A ptr a mem with
    | none => none
    | some oldSize =>
      if size ≤ oldSize then some (ptr, a, mem)
      else
        match allocation a mem with
        | none => none
        | some (newPtr, _, a, mem) =>
          if newPtr ≠ 0 then
            (deallocate A ptr a (memcpy newPtr ptr oldSize mem)).map fun (a, mem) => (newPtr, a, mem)
          else some (newPtr, a, mem)

def reallocate (answers : CallAnswers) (thread ptr size : Nat) (a : ScalableAllocator) (mem : Memory) :
    Option (Nat × ScalableAllocator × Memory) :=
  reallocateWith A (allocate A answers thread size) ptr size a mem

def alignedReallocate (answers : CallAnswers) (thread ptr size alignment : Nat) (a : ScalableAllocator)
    (mem : Memory) : Option (Nat × ScalableAllocator × Memory) :=
  reallocateWith A (allocateAligned A answers thread size alignment) ptr size a mem

def reallocateAndZeroMemory (answers : CallAnswers) (thread ptr num size : Nat) (a : ScalableAllocator)
    (mem : Memory) : Option (Nat × ScalableAllocator × Memory) :=
  let totalSize := mul64 num size
  match reallocate A answers thread ptr totalSize a mem with
  | none => none
  | some (ret, a, mem) => some (ret, a, if ret ≠ 0 then memset ret totalSize mem else mem)

section
variable {A : AllocatorType} {allocation : ScalableAllocator → Memory → Option (Nat × Bool × ScalableAllocator × Memory)}
  {ptr size oldSize ret : Nat} {a a' : ScalableAllocator} {mem mem' : Memory}

/-- What a reallocation to some bytes can do: keep the block, or copy its contents to a new one. -/
theorem reallocateWith_cases (hptr : ptr ≠ 0) (hsize : size ≠ 0) (hu : getUsableSize A ptr a mem = some oldSize)
    (h : reallocateWith A allocation ptr size a mem = some (ret, a', mem')) :
    (size ≤ oldSize ∧ ret = ptr ∧ a' = a ∧ mem' = mem) ∨
    (oldSize < size ∧ ∃ central a₁ mem₁, allocation a mem = some (ret, central, a₁, mem₁) ∧
      (ret = 0 ∧ a' = a₁ ∧ mem' = mem₁ ∨
        ret ≠ 0 ∧ deallocate A ptr a₁ (memcpy ret ptr oldSize mem₁) = some (a', mem'))) := by
  rw [reallocateWith, if_neg hptr, if_neg hsize, hu] at h
  dsimp only at h
  by_cases hle : size ≤ oldSize
  · rw [if_pos hle] at h
    cases h
    exact .inl ⟨hle, rfl, rfl, rfl⟩
  rw [if_neg hle] at h
  refine .inr ⟨Nat.lt_of_not_le hle, ?_⟩
  rcases hcall : allocation a mem with _ | ⟨newPtr, central, a₁, mem₁⟩
  · rw [hcall] at h
    cases h
  rw [hcall] at h
  dsimp only at h
  by_cases hnew : newPtr = 0
  · rw [if_neg (not_not.mpr hnew)] at h
    cases h
    exact ⟨central, a', mem', rfl, .inl ⟨hnew, rfl, rfl⟩⟩
  · rw [if_pos hnew] at h
    obtain ⟨⟨a₂, mem₂⟩, hfree, heq⟩ := Option.map_eq_some_iff.mp h
    cases heq
    exact ⟨central, a₁, mem₁, rfl, .inr ⟨hnew, hfree⟩⟩

end
end ScalableAllocator
end Metamalloc.Allocator
