import Metamalloc.Heaps.HeapBase
import Metamalloc.Heaps.HeapRuns

/-! The allocator of a central heap and of one heap for each thread. The heaps of the
threads are placed one after another in a metadata buffer of fixed size. -/
namespace Metamalloc.Allocator
open Library.Word64 Pages Segments Heaps

/-- The two heap types, and the size of a heap object in the metadata buffer. -/
structure AllocatorType where
  centralHeap : HeapType
  localHeap : HeapType
  localHeapSize : Nat
  central_policy : centralHeap.concurrency = .central
  local_policy : localHeap.concurrency = .threadLocal ∨ localHeap.concurrency = .singleThread

structure HeapAnswers where
  request : Nat → Nat
  queueMemory : SegmentId → Bool

structure CallAnswers where
  heap : HeapAnswers
  arena : ArenaAnswers

structure ScalableAllocator where
  centralHeap : SimpleHeapPow2 := {}
  /-- The heaps in the metadata buffer. -/
  localHeaps : Nat → SimpleHeapPow2 := fun _ => {}
  activeLocalHeapCount : Nat := 0
  maxThreadLocalHeapCount : Nat := 0
  cachedThreadLocalHeapCount : Nat := 0
  localHeapCreationParams : HeapCreationParams := {}
  arenaPageAlignment : Nat := 0
  /-- The heap each thread has stored, by its place in the metadata buffer. -/
  threadLocalStorage : Nat → Option Nat := fun _ => none

/-- Asks the local heap first, and the central one after a refusal; the flag says that the
central heap was asked. -/
def failover {σ : Type} (localHeap : Option (σ → Option (Nat × σ))) (centralHeap : σ → Option (Nat × σ))
    (s : σ) : Option (Nat × Bool × σ) :=
  match localHeap with
  | none => (centralHeap s).map fun (ret, s) => (ret, true, s)
  | some allocate =>
    match allocate s with
    | none => none
    | some (ret, s) =>
      if ret = 0 then (centralHeap s).map fun (ret, s) => (ret, true, s) else some (ret, false, s)

namespace ScalableAllocator
variable (A : AllocatorType)

def setLocalHeap (a : ScalableAllocator) (i : Nat) (heap : SimpleHeapPow2) : ScalableAllocator :=
  { a with localHeaps := Function.update a.localHeaps i heap }

/-- A new heap object at a place of the metadata buffer; null when it cannot be created. -/
def createLocalHeap (answers : HeapAnswers) (index : Nat) (a : ScalableAllocator) (mem : Memory) :
    Option (Option Nat × ScalableAllocator × Memory) :=
  (SimpleHeapPow2.create A.localHeap a.localHeapCreationParams a.arenaPageAlignment answers.request
    answers.queueMemory {} mem).map fun (success, heap, mem) =>
      (if success then some index else none, a.setLocalHeap index heap, mem)

def createCachedHeaps (answers : Nat → HeapAnswers) : List Nat → ScalableAllocator → Memory →
    Option (Bool × ScalableAllocator × Memory)
  | [], a, mem => some (true, a, mem)
  | i :: rest, a, mem =>
    match createLocalHeap A (answers i) i a mem with
    | none => none
    | some (none, a, mem) => some (false, a, mem)
    | some (some _, a, mem) => createCachedHeaps answers rest a mem

def createHeaps (metadataBufferSize : Nat) (answers : Nat → HeapAnswers) (a : ScalableAllocator)
    (mem : Memory) : Option (Bool × ScalableAllocator × Memory) :=
  let maxCount := metadataBufferSize / A.localHeapSize
  let a := { a with maxThreadLocalHeapCount := maxCount }
  if maxCount = 0 then some (false, a, mem)
  else
    let cached := if maxCount < a.cachedThreadLocalHeapCount then maxCount
      else a.cachedThreadLocalHeapCount
    createCachedHeaps A answers (List.range cached) { a with cachedThreadLocalHeapCount := cached } mem

structure CreationParams where
  central : HeapCreationParams
  localHeap : HeapCreationParams
  arenaCapacity : Nat
  arenaPageAlignment : Nat := 65536
  metadataBufferSize : Nat := 131072

/-- What the system gives during `create`. -/
structure CreationAnswers where
  arena : Bool
  metadata : Bool
  threadLocalStorage : Bool
  centralHeap : HeapAnswers
  cachedHeaps : Nat → HeapAnswers

def create (params : CreationParams) (answers : CreationAnswers) (a : ScalableAllocator) (mem : Memory) :
    Option (Bool × ScalableAllocator × Memory) :=
  if params.arenaCapacity = 0 ∨ params.arenaPageAlignment = 0 ∨ params.metadataBufferSize = 0 ∨
      !isSizeAMultipleOfPageAllocationGranularity params.arenaPageAlignment ∨
      !isSizeAMultipleOfPageAllocationGranularity params.metadataBufferSize then some (false, a, mem)
  else if !answers.arena ∨ !answers.metadata then some (false, a, mem)
  else
    match SimpleHeapPow2.create A.centralHeap params.central params.arenaPageAlignment
        answers.centralHeap.request answers.centralHeap.queueMemory a.centralHeap mem with
    | none => none
    | some (false, heap, mem) => some (false, { a with centralHeap := heap }, mem)
    | some (true, heap, mem) =>
      if !answers.threadLocalStorage then some (false, { a with centralHeap := heap }, mem)
      else createHeaps A params.metadataBufferSize answers.cachedHeaps
        { a with
          centralHeap := heap
          arenaPageAlignment := params.arenaPageAlignment
          localHeapCreationParams := params.localHeap } mem

/-- A successful `create` has made the central heap, and then the cached heaps in the order of
their places, as many of them as were asked for and have a place. -/
theorem create_succeeded {A : AllocatorType} {params : CreationParams} {answers : CreationAnswers}
    {a a' : ScalableAllocator} {mem mem' : Memory}
    (h : create A params answers a mem = some (true, a', mem')) :
    ∃ heap mem₁ cached, SimpleHeapPow2.create A.centralHeap params.central params.arenaPageAlignment
        answers.centralHeap.request answers.centralHeap.queueMemory a.centralHeap mem = some (true, heap, mem₁) ∧
      params.metadataBufferSize / A.localHeapSize ≠ 0 ∧
      cached = min (params.metadataBufferSize / A.localHeapSize) a.cachedThreadLocalHeapCount ∧
      createCachedHeaps A answers.cachedHeaps (List.range cached)
        { a with
          centralHeap := heap
          arenaPageAlignment := params.arenaPageAlignment
          localHeapCreationParams := params.localHeap
          maxThreadLocalHeapCount := params.metadataBufferSize / A.localHeapSize
          cachedThreadLocalHeapCount := cached } mem₁ = some (true, a', mem') := by
  rw [create] at h
  split at h
  · cases h
  split at h
  · cases h
  split at h
  · cases h
  · cases h
  · rename_i heap mem₁ hcentral
    split at h
    · cases h
    rw [createHeaps] at h
    dsimp only at h
    split at h
    · cases h
    · rename_i hmax
      refine ⟨heap, mem₁, _, hcentral, hmax, ?_, h⟩
      split <;> omega

def setThreadLocalHeapCacheCount (count : Nat) (a : ScalableAllocator) : ScalableAllocator :=
  { a with cachedThreadLocalHeapCount := count }

def getThreadLocalHeap (answers : HeapAnswers) (thread : Nat) (a : ScalableAllocator) (mem : Memory) :
    Option (Option Nat × ScalableAllocator × Memory) :=
  match a.threadLocalStorage thread with
  | some i => some (some i, a, mem)
  | none =>
    if a.maxThreadLocalHeapCount ≤ a.activeLocalHeapCount + 1 then some (none, a, mem)
    else
      let created := if a.cachedThreadLocalHeapCount ≤ a.activeLocalHeapCount then
          createLocalHeap A answers a.activeLocalHeapCount a mem
        else some (some a.activeLocalHeapCount, a, mem)
      -- The heap counts as active and is stored, whether it could be created or not.
      created.map fun (heap, a, mem) =>
        (heap, { a with
          activeLocalHeapCount := a.activeLocalHeapCount + 1
          threadLocalStorage := Function.update a.threadLocalStorage thread heap }, mem)

section
variable {A : AllocatorType} {a a' : ScalableAllocator} {mem mem' : Memory} {answers : HeapAnswers} {thread : Nat}
  {heap : Option Nat}

/-- What the lookup can do: return what the thread has stored, if that is a heap or no place is left; or give the
thread the next place, with a new heap or with the one that waits there. -/
theorem getThreadLocalHeap_cases (h : getThreadLocalHeap A answers thread a mem = some (heap, a', mem')) :
    (heap = a.threadLocalStorage thread ∧ a' = a ∧ mem' = mem ∧
      (heap = none → a.maxThreadLocalHeapCount ≤ a.activeLocalHeapCount + 1)) ∨
    (a.threadLocalStorage thread = none ∧ a.activeLocalHeapCount + 1 < a.maxThreadLocalHeapCount ∧
      ∃ a₁, a' = { a₁ with
          activeLocalHeapCount := a₁.activeLocalHeapCount + 1
          threadLocalStorage := Function.update a₁.threadLocalStorage thread heap } ∧
        (a.cachedThreadLocalHeapCount ≤ a.activeLocalHeapCount ∧
            createLocalHeap A answers a.activeLocalHeapCount a mem = some (heap, a₁, mem') ∨
          a.activeLocalHeapCount < a.cachedThreadLocalHeapCount ∧ heap = some a.activeLocalHeapCount ∧
            a₁ = a ∧ mem' = mem)) := by
  rw [getThreadLocalHeap] at h
  cases hstorage : a.threadLocalStorage thread with
  | some i =>
    rw [hstorage] at h
    cases h
    exact .inl ⟨rfl, rfl, rfl, fun hnone => absurd hnone (Option.some_ne_none i)⟩
  | none =>
    rw [hstorage] at h
    dsimp only at h
    by_cases hfull : a.maxThreadLocalHeapCount ≤ a.activeLocalHeapCount + 1
    · rw [if_pos hfull] at h
      cases h
      exact .inl ⟨rfl, rfl, rfl, fun _ => hfull⟩
    rw [if_neg hfull] at h
    obtain ⟨⟨heap', a₁, mem₁⟩, hcreated, heq⟩ := Option.map_eq_some_iff.mp h
    cases heq
    refine .inr ⟨rfl, Nat.lt_of_not_le hfull, a₁, rfl, ?_⟩
    by_cases hlazy : a.cachedThreadLocalHeapCount ≤ a.activeLocalHeapCount
    · rw [if_pos hlazy] at hcreated
      exact .inl ⟨hlazy, hcreated⟩
    · rw [if_neg hlazy] at hcreated
      cases hcreated
      exact .inr ⟨Nat.lt_of_not_le hlazy, rfl, rfl, rfl⟩

theorem getThreadLocalHeap_stored (h : getThreadLocalHeap A answers thread a mem = some (heap, a', mem')) :
    a'.threadLocalStorage thread = heap := by
  rcases getThreadLocalHeap_cases h with ⟨hheap, rfl, -, -⟩ | ⟨-, -, a₁, rfl, -⟩
  · exact hheap.symm
  · exact Function.update_self ..

end

def onCentralHeap (call : SimpleHeapPow2 → Memory → Option (Nat × SimpleHeapPow2 × Memory)) :
    ScalableAllocator × Memory → Option (Nat × ScalableAllocator × Memory)
  | (a, mem) => (call a.centralHeap mem).map fun (ret, heap, mem) => (ret, { a with centralHeap := heap }, mem)

def onLocalHeap (call : SimpleHeapPow2 → Memory → Option (Nat × SimpleHeapPow2 × Memory)) (i : Nat) :
    ScalableAllocator × Memory → Option (Nat × ScalableAllocator × Memory)
  | (a, mem) => (call (a.localHeaps i) mem).map fun (ret, heap, mem) => (ret, a.setLocalHeap i heap, mem)

/-- `allocate` and `allocate_aligned`, for a call on a heap of either type. -/
def allocateFrom (call : HeapType → SimpleHeapPow2 → Memory → Option (Nat × SimpleHeapPow2 × Memory))
    (answers : HeapAnswers) (thread : Nat) (a : ScalableAllocator) (mem : Memory) :
    Option (Nat × Bool × ScalableAllocator × Memory) :=
  match getThreadLocalHeap A answers thread a mem with
  | none => none
  | some (localHeap, a, mem) =>
    failover (localHeap.map (onLocalHeap (call A.localHeap))) (onCentralHeap (call A.centralHeap)) (a, mem)

def allocate (answers : CallAnswers) (thread size : Nat) (a : ScalableAllocator) (mem : Memory) :
    Option (Nat × Bool × ScalableAllocator × Memory) :=
  allocateFrom A (fun H => SimpleHeapPow2.allocate H answers.arena size) answers.heap thread a mem

def allocateAligned (answers : CallAnswers) (thread size alignment : Nat) (a : ScalableAllocator)
    (mem : Memory) : Option (Nat × Bool × ScalableAllocator × Memory) :=
  allocateFrom A (fun H heap mem => HeapBase.allocateAligned
    (fun size (heap, mem) => SimpleHeapPow2.allocate H answers.arena size heap mem) size alignment (heap, mem))
    answers.heap thread a mem

def owner (ptr : Nat) (a : ScalableAllocator) : Option Nat :=
  (List.range a.activeLocalHeapCount).find? fun i => (a.localHeaps i).ownsPointer ptr

def deallocate (ptr : Nat) (a : ScalableAllocator) (mem : Memory) : Option (ScalableAllocator × Memory) :=
  if ptr = 0 then some (a, mem)
  else
    match a.owner ptr with
    | some i => (SimpleHeapPow2.deallocate A.localHeap ptr (a.localHeaps i) mem).map fun (heap, mem) =>
        (a.setLocalHeap i heap, mem)
    | none => (SimpleHeapPow2.deallocate A.centralHeap ptr a.centralHeap mem).map fun (heap, mem) =>
        ({ a with centralHeap := heap }, mem)

def getUsableSize (ptr : Nat) (a : ScalableAllocator) (mem : Memory) : Option Nat :=
  if ptr = 0 then some 0
  else
    match a.owner ptr with
    | some i => SimpleHeapPow2.getUsableSize A.localHeap ptr (a.localHeaps i) mem
    | none => SimpleHeapPow2.getUsableSize A.centralHeap ptr a.centralHeap mem

/-- The end of a thread: the central heap takes the pages of its heap over. -/
def threadSpecificDestructor (thread : Nat) (a : ScalableAllocator) (mem : Memory) :
    Option (ScalableAllocator × Memory) :=
  match a.threadLocalStorage thread with
  | none => some (a, mem)
  | some i => (SimpleHeapPow2.transferLogicalPagesFrom (a.localHeaps i) a.centralHeap mem).map
      fun (central, source, mem) =>
        ({ a.setLocalHeap i source with
          centralHeap := central
          threadLocalStorage := Function.update a.threadLocalStorage thread none }, mem)

def getCreatedHeapCount (a : ScalableAllocator) : Nat :=
  if a.activeLocalHeapCount < a.cachedThreadLocalHeapCount then a.cachedThreadLocalHeapCount
  else a.activeLocalHeapCount

def destroyLocalHeaps : List Nat → ScalableAllocator → Memory → Option (ScalableAllocator × Memory)
  | [], a, mem => some (a, mem)
  | i :: rest, a, mem =>
    match SimpleHeapPow2.destroy A.localHeap (a.localHeaps i) mem with
    | none => none
    | some (heap, mem) => destroyLocalHeaps rest (a.setLocalHeap i heap) mem

/-- The metadata buffer is there after a successful `create`. -/
def destroyHeaps (a : ScalableAllocator) (mem : Memory) : Option (ScalableAllocator × Memory) :=
  destroyLocalHeaps A (List.range a.getCreatedHeapCount) a mem

end ScalableAllocator
def oneThreadAllocator : AllocatorType :=
  ⟨⟨.central, .coalesce, .immediate⟩, ⟨.threadLocal, .coalesce, .immediate⟩, 2048, rfl, .inl rfl⟩

def createOneThread : Option (Bool × ScalableAllocator × Memory) :=
  ScalableAllocator.create oneThreadAllocator
    { central := onePageEach
      localHeap := onePageEach
      arenaCapacity := 65536
      arenaPageAlignment := 4096
      metadataBufferSize := 4096 }
    ⟨true, true, true, ⟨fun _ => 1048576, fun _ => true⟩, fun _ => ⟨fun _ => 0, fun _ => false⟩⟩ {}
    ⟨fun _ => 0, fun _ => {}, [], []⟩

def oneThreadAnswers : CallAnswers := ⟨⟨fun _ => 2097152, fun _ => true⟩, refusingArena⟩

def exhaustedAnswers : CallAnswers := ⟨⟨fun _ => 0, fun _ => false⟩, refusingArena⟩

end Metamalloc.Allocator
