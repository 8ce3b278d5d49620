import Metamalloc.Heaps.SizeClasses
import Metamalloc.Segments.SegmentSystem

/-! The heap of eight bins for small objects, one for each power of two from 16 to 2048,
and one bin for big objects. All nine segments share the buffer the heap is created over. -/
namespace Metamalloc.Heaps
open Library.Word64 Pages Segments

/-- The template arguments of `SimpleHeapPow2`. -/
structure HeapType where
  concurrency : ConcurrencyPolicy
  coalescing : LogicalPageAnySize.CoalescePolicy
  recycling : PageRecyclingPolicy

inductive SegmentId where
  | small (i : Fin smallObjectBinCount)
  | big
  deriving DecidableEq

namespace HeapType

def segmentSmallObject (H : HeapType) : SegmentType :=
  ⟨H.concurrency, PageKind.logicalPage.pageType, H.recycling, true⟩

def segmentBigObject (H : HeapType) : SegmentType :=
  ⟨H.concurrency, (PageKind.logicalPageAnySize H.coalescing).pageType, H.recycling, false⟩

def segmentType (H : HeapType) : SegmentId → SegmentType
  | .small _ => H.segmentSmallObject
  | .big => H.segmentBigObject

def laws (H : HeapType) : (id : SegmentId) → PageLaws (H.segmentType id).page
  | .small _ => PageKind.logicalPage.laws
  | .big => (PageKind.logicalPageAnySize H.coalescing).laws

end HeapType

structure HeapCreationParams where
  smallObjectLogicalPageSize : Nat := 65536
  smallObjectBinPageCounts : Fin smallObjectBinCount → Nat := fun _ => 1
  smallObjectPageRecyclingThreshold : Nat := 0
  bigObjectLogicalPageSize : Nat := 196608
  bigObjectPageRecyclingThreshold : Nat := 0
  segmentGrowCoefficient : GrowCoefficient := .one
  segmentDeallocationQueueInitialCapacity : Nat := 65536

structure SimpleHeapPow2 where
  smallObjectLogicalPageSize : Nat := 0
  bins : Fin smallObjectBinCount → Segment := fun _ => {}
  bigObjectLogicalPageSize : Nat := 0
  bigObjectBin : Segment := {}
  /-- The two members of `HeapBase`. -/
  bufferAddress : Nat := 0
  bufferLength : Nat := 0

namespace SimpleHeapPow2
variable (H : HeapType)

def segment (heap : SimpleHeapPow2) : SegmentId → Segment
  | .small i => heap.bins i
  | .big => heap.bigObjectBin

def setSegment (heap : SimpleHeapPow2) : SegmentId → Segment → SimpleHeapPow2
  | .small i, s => { heap with bins := Function.update heap.bins i s }
  | .big, s => { heap with bigObjectBin := s }

/-- The bytes of all bins, added up bin by bin. -/
def calculateRequiredBufferSize (params : HeapCreationParams) : Nat :=
  add64 ((List.finRange smallObjectBinCount).foldl (fun ret i =>
    add64 ret (mul64 (params.smallObjectBinPageCounts i) params.smallObjectLogicalPageSize)) 0)
    params.bigObjectLogicalPageSize

def smallSegmentParams (params : HeapCreationParams) (i : Fin smallObjectBinCount) (sizeClass : Nat) :
    SegmentCreationParameters where
  sizeClass := sizeClass
  logicalPageCount := params.smallObjectBinPageCounts i
  logicalPageSize := params.smallObjectLogicalPageSize
  pageRecyclingThreshold := params.smallObjectPageRecyclingThreshold
  growCoefficient := params.segmentGrowCoefficient
  deallocationQueueInitialCapacity := params.segmentDeallocationQueueInitialCapacity

/-- The big bin keeps the default growth coefficient and queue capacity. -/
def bigSegmentParams (params : HeapCreationParams) : SegmentCreationParameters where
  sizeClass := 0
  logicalPageCount := 1
  logicalPageSize := params.bigObjectLogicalPageSize
  pageRecyclingThreshold := params.bigObjectPageRecyclingThreshold

/-- Distributes the buffer to the given bins; the result also has the bytes distributed. -/
def createBins (params : HeapCreationParams) (queueMemory : SegmentId → Bool) :
    List (Fin smallObjectBinCount) → (bufferIndex sizeClass : Nat) → SimpleHeapPow2 → Memory →
    Option (Bool × Nat × SimpleHeapPow2 × Memory)
  | [], bufferIndex, _, heap, mem => some (true, bufferIndex, heap, mem)
  | i :: rest, bufferIndex, sizeClass, heap, mem =>
    match Segment.create H.segmentSmallObject (add64 heap.bufferAddress bufferIndex)
        (queueMemory (.small i)) (smallSegmentParams params i sizeClass) (heap.bins i) mem with
    | none => none
    | some (false, s, mem) => some (false, bufferIndex, heap.setSegment (.small i) s, mem)
    | some (true, s, mem) =>
      let binBufferSize := mul64 (params.smallObjectBinPageCounts i) params.smallObjectLogicalPageSize
      createBins params queueMemory rest (add64 bufferIndex binBufferSize) (sizeClass <<< 1)
        (heap.setSegment (.small i) s) mem

/-- The arena is not null; it says its page alignment and answers the one request. -/
def create (params : HeapCreationParams) (pageAlignment : Nat) (request : Nat → Nat)
    (queueMemory : SegmentId → Bool) (heap : SimpleHeapPow2) (mem : Memory) :
    Option (Bool × SimpleHeapPow2 × Memory) :=
  if params.smallObjectLogicalPageSize = 0 ∨
      params.smallObjectLogicalPageSize < pageAllocationGranularity ∨
      pageAlignment ≠ params.smallObjectLogicalPageSize ∨ params.bigObjectLogicalPageSize = 0 ∨
      0 < modulo params.bigObjectLogicalPageSize params.smallObjectLogicalPageSize then
    some (false, heap, mem)
  else if !isSizeAMultipleOfPageAllocationGranularity params.smallObjectLogicalPageSize ∨
      !isSizeAMultipleOfPageAllocationGranularity params.bigObjectLogicalPageSize then
    some (false, heap, mem)
  else
    let bufferLength := calculateRequiredBufferSize params
    let heap := { heap with
      smallObjectLogicalPageSize := params.smallObjectLogicalPageSize
      bigObjectLogicalPageSize := params.bigObjectLogicalPageSize
      bufferLength := bufferLength
      bufferAddress := request bufferLength }
    match createBins H params queueMemory (List.finRange smallObjectBinCount) 0
        smallObjectMinSizeClass heap mem with
    | none => none
    | some (false, _, heap, mem) => some (false, heap, mem)
    | some (true, bufferIndex, heap, mem) =>
      (Segment.create H.segmentBigObject (add64 heap.bufferAddress bufferIndex) (queueMemory .big)
        (bigSegmentParams params) heap.bigObjectBin mem).map fun (success, s, mem) =>
          (success, heap.setSegment .big s, mem)

/-- The segment a request goes to, and the size that is asked of it. -/
def requestTarget (size : Nat) : SegmentId × Nat :=
  if size ≤ largestSmallObjectSizeClass then
    let adjustedSize := adjustSizeForSmallObjectBin size
    (.small (getPow2BinIndexFromSize adjustedSize), adjustedSize)
  else (.big, size)

def allocate (arena : ArenaAnswers) (size : Nat) (heap : SimpleHeapPow2) (mem : Memory) :
    Option (Nat × SimpleHeapPow2 × Memory) :=
  let (id, size) := requestTarget size
  (Segment.allocate (H.segmentType id) arena size (heap.segment id) mem).map fun (ret, s, mem) =>
    (ret, heap.setSegment id s, mem)

def pointerTarget (ptr : Nat) (heap : SimpleHeapPow2) (mem : Memory) : Option SegmentId :=
  (Segment.ownsPointer H.segmentBigObject ptr heap.bigObjectBin mem).map fun owns =>
    if owns then .big
    else .small (getPow2BinIndexFromSize
      (Segment.getSizeClassFromAddress ptr heap.smallObjectLogicalPageSize mem))

def deallocate (ptr : Nat) (heap : SimpleHeapPow2) (mem : Memory) : Option (SimpleHeapPow2 × Memory) :=
  match pointerTarget H ptr heap mem with
  | none => none
  | some id => (Segment.deallocate (H.segmentType id) ptr (heap.segment id) mem).map fun (s, mem) =>
      (heap.setSegment id s, mem)

def getUsableSize (ptr : Nat) (heap : SimpleHeapPow2) (mem : Memory) : Option Nat :=
  match Segment.ownsPointer H.segmentBigObject ptr heap.bigObjectBin mem with
  | none => none
  | some true => Segment.getUsableSize H.segmentBigObject ptr heap.bigObjectBin mem
  | some false => some (Segment.getSizeClassFromAddress ptr heap.smallObjectLogicalPageSize mem)

def ownsPointer (ptr : Nat) (heap : SimpleHeapPow2) : Bool :=
  heap.bufferAddress ≤ ptr && ptr < add64 heap.bufferAddress heap.bufferLength

def segmentIds : List SegmentId := .big :: (List.finRange smallObjectBinCount).map .small

def transferSegments : List SegmentId → (heap source : SimpleHeapPow2) → Memory →
    Option (SimpleHeapPow2 × SimpleHeapPow2 × Memory)
  | [], heap, source, mem => some (heap, source, mem)
  | id :: rest, heap, source, mem =>
    match Segment.transferLogicalPagesFrom (source.segment id) (heap.segment id) mem with
    | none => none
    | some (s, src, mem) => transferSegments rest (heap.setSegment id s) (source.setSegment id src) mem

def transferLogicalPagesFrom (source heap : SimpleHeapPow2) (mem : Memory) :
    Option (SimpleHeapPow2 × SimpleHeapPow2 × Memory) :=
  transferSegments segmentIds heap source mem

def recycleSegments : List SegmentId → SimpleHeapPow2 → Memory → Option (SimpleHeapPow2 × Memory)
  | [], heap, mem => some (heap, mem)
  | id :: rest, heap, mem =>
    match Segment.recycleFreeLogicalPages (heap.segment id) mem with
    | none => none
    | some (s, mem) => recycleSegments rest (heap.setSegment id s) mem

def recycle (heap : SimpleHeapPow2) (mem : Memory) : Option (SimpleHeapPow2 × Memory) :=
  recycleSegments segmentIds heap mem

def destroySegments : List SegmentId → SimpleHeapPow2 → Memory → Option (SimpleHeapPow2 × Memory)
  | [], heap, mem => some (heap, mem)
  | id :: rest, heap, mem =>
    match Segment.destroy (H.segmentType id) (heap.segment id) mem with
    | none => none
    | some (s, mem) => destroySegments rest (heap.setSegment id s) mem

/-- The destructor: members are destroyed last one first, the bins of the array likewise. -/
def destroy (heap : SimpleHeapPow2) (mem : Memory) : Option (SimpleHeapPow2 × Memory) :=
  destroySegments H (.big :: (List.finRange smallObjectBinCount).reverse.map .small) heap mem

section
variable {heap : SimpleHeapPow2} {id id' : SegmentId} {s : Segment}

@[simp] theorem segment_setSegment_self : (heap.setSegment id s).segment id = s := by
  cases id with
  | small i => exact Function.update_self ..
  | big => rfl

theorem segment_setSegment_of_ne (h : id' ≠ id) :
    (heap.setSegment id s).segment id' = heap.segment id' := by
  cases id with
  | small i =>
    cases id' with
    | small j => exact Function.update_of_ne (fun e => h (congrArg SegmentId.small e)) ..
    | big => rfl
  | big =>
    cases id' with
    | small j => rfl
    | big => exact absurd rfl h

theorem setSegment_segment (id : SegmentId) : heap.setSegment id (heap.segment id) = heap := by
  cases id with
  | small i => exact congrArg (fun bins => { heap with bins := bins }) (Function.update_eq_self ..)
  | big => rfl

@[simp] theorem smallObjectLogicalPageSize_setSegment :
    (heap.setSegment id s).smallObjectLogicalPageSize = heap.smallObjectLogicalPageSize := by
  cases id <;> rfl

@[simp] theorem bufferAddress_setSegment : (heap.setSegment id s).bufferAddress = heap.bufferAddress := by
  cases id <;> rfl

@[simp] theorem bufferLength_setSegment : (heap.setSegment id s).bufferLength = heap.bufferLength := by
  cases id <;> rfl

end
end SimpleHeapPow2
end Metamalloc.Heaps
