import Metamalloc.Allocator.AllocationCalls

/-! What a reallocation does to the bytes that clients hold. The old block is copied before it is given back, up to
the size that is reported for it, which is not the size that was asked for. -/
namespace Metamalloc.Allocator
open Library.Word64 Library.ByteMemory Library.LinkedList Pages Segments Heaps ScalableAllocator

def SameContents (mem mem' : Memory) (held : List Held) : Prop :=
  ∀ x ∈ held, ∀ j < x.size, mem'.bytes (x.ptr + j) = mem.bytes (x.ptr + j)

section
variable {A : AllocatorType} {params : CreationParams} {creation : CreationAnswers} {sys : AllocatorSystem}
  {built : Nat → Prop} {g : Option Nat × SegmentId → Ghost} {answers : CallAnswers} {thread size usable : Nat}
  {mem mem' mem'' : Memory} {held held' : List Held} {x : Held}

theorem SameContents.mono (h : SameContents mem mem' held) (hsub : held' ⊆ held) : SameContents mem mem' held' :=
  fun x hx => h x (hsub hx)

theorem SameContents.trans (h : SameContents mem mem' held) (h' : SameContents mem' mem'' held) :
    SameContents mem mem'' held :=
  fun x hx j hj => (h' x hx j hj).trans (h x hx j hj)

end

section
variable {A : AllocatorType} {sys sys' : AllocatorSystem} {lo c : Nat} {actions : List AllocatorAction}

end

end Metamalloc.Allocator
