import Mathlib.Data.List.Perm.Basic
import Metamalloc.Library.Word64
import Metamalloc.Library.ByteMemory
import Metamalloc.Library.LinkedList

/-! The page header and the operations every logical page inherits from it. -/
namespace Metamalloc.Pages
open Library.Word64 Library.ByteMemory Library.LinkedList

def pageAllocationGranularity : Nat := 4096

def logicalPageHeaderSize : Nat := 64

inductive LogicalPageHeaderFlags where
  | isUsed | isDirty | isLocked | isHugePage
  deriving DecidableEq, Repr

def LogicalPageHeaderFlags.mask : LogicalPageHeaderFlags → BitVec 16
  | isUsed => 0x0001#16
  | isDirty => 0x0002#16
  | isLocked => 0x0004#16
  | isHugePage => 0x0008#16

/-- The packed header; a null pointer is `0`. The default value is `initialise()`. -/
structure LogicalPageHeader where
  head : Nat := 0
  nextLogicalPagePtr : Nat := 0
  prevLogicalPagePtr : Nat := 0
  pageFlags : BitVec 16 := 0#16
  sizeClass : Nat := 0
  usedSize : Nat := 0
  logicalPageStartAddress : Nat := 0
  logicalPageSize : Nat := 0
  lastUsedNode : Nat := 0
  deriving DecidableEq

namespace LogicalPageHeader

/-- The header that `create` sets up over a buffer, before its free list. -/
def ofBuffer (buffer bufferSize sizeClass : Nat) : LogicalPageHeader :=
  { sizeClass := sizeClass, logicalPageStartAddress := buffer, logicalPageSize := bufferSize }

def setFlag (h : LogicalPageHeader) (flag : LogicalPageHeaderFlags) : LogicalPageHeader :=
  { h with pageFlags := h.pageFlags ||| flag.mask }

def clearFlag (h : LogicalPageHeader) (flag : LogicalPageHeaderFlags) : LogicalPageHeader :=
  { h with pageFlags := h.pageFlags &&& ~~~flag.mask }

def getFlag (h : LogicalPageHeader) (flag : LogicalPageHeaderFlags) : Bool :=
  h.pageFlags &&& flag.mask != 0#16

def ownsPointer (h : LogicalPageHeader) (ptr : Nat) : Bool :=
  h.logicalPageStartAddress ≤ ptr && ptr < add64 h.logicalPageStartAddress h.logicalPageSize

def canBeRecycled (h : LogicalPageHeader) : Bool := !h.getFlag .isUsed
def markAsUsed (h : LogicalPageHeader) : LogicalPageHeader := h.setFlag .isUsed
def markAsNonUsed (h : LogicalPageHeader) : LogicalPageHeader := h.clearFlag .isUsed

def setNextLogicalPage (h : LogicalPageHeader) (address : Nat) : LogicalPageHeader :=
  { h with nextLogicalPagePtr := address }

def setPreviousLogicalPage (h : LogicalPageHeader) (address : Nat) : LogicalPageHeader :=
  { h with prevLogicalPagePtr := address }

@[simp] theorem canBeRecycled_markAsUsed (h : LogicalPageHeader) :
    h.markAsUsed.canBeRecycled = false := by
  have hm : (h.pageFlags ||| 1#16) &&& 1#16 = 1#16 := by
    ext i hi
    simp only [BitVec.getElem_and, BitVec.getElem_or]
    cases h.pageFlags[i] <;> cases (1#16)[i] <;> rfl
  simp only [markAsUsed, canBeRecycled, getFlag, setFlag, LogicalPageHeaderFlags.mask, hm]
  rfl

@[simp] theorem canBeRecycled_markAsNonUsed (h : LogicalPageHeader) :
    h.markAsNonUsed.canBeRecycled = true := by
  have hm : h.pageFlags &&& ~~~1#16 &&& 1#16 = 0#16 := by
    ext i hi
    simp only [BitVec.getElem_and, BitVec.getElem_not, BitVec.getElem_zero]
    cases h.pageFlags[i] <;> cases (1#16)[i] <;> rfl
  simp only [markAsNonUsed, canBeRecycled, getFlag, clearFlag, LogicalPageHeaderFlags.mask, hm]
  rfl

theorem canBeRecycled_congr {h h' : LogicalPageHeader} (hf : h'.pageFlags = h.pageFlags) :
    h'.canBeRecycled = h.canBeRecycled := by
  rw [canBeRecycled, getFlag, hf, canBeRecycled, getFlag]

/-- What the free store of a page reads from its header; links and flags are not part of it. -/
structure SameStore (h h' : LogicalPageHeader) : Prop where
  head : h'.head = h.head
  sizeClass : h'.sizeClass = h.sizeClass
  usedSize : h'.usedSize = h.usedSize
  start : h'.logicalPageStartAddress = h.logicalPageStartAddress
  size : h'.logicalPageSize = h.logicalPageSize

/-- What the segment reads from a header and no page operation changes. -/
structure SameFrame (h h' : LogicalPageHeader) : Prop where
  next : h'.nextLogicalPagePtr = h.nextLogicalPagePtr
  prev : h'.prevLogicalPagePtr = h.prevLogicalPagePtr
  flags : h'.pageFlags = h.pageFlags
  sizeClass : h'.sizeClass = h.sizeClass
  start : h'.logicalPageStartAddress = h.logicalPageStartAddress
  size : h'.logicalPageSize = h.logicalPageSize

theorem SameStore.refl (h : LogicalPageHeader) : SameStore h h := ⟨rfl, rfl, rfl, rfl, rfl⟩
theorem SameFrame.refl (h : LogicalPageHeader) : SameFrame h h := ⟨rfl, rfl, rfl, rfl, rfl, rfl⟩

theorem SameFrame.trans {h h' h'' : LogicalPageHeader} (a : SameFrame h h') (b : SameFrame h' h'') :
    SameFrame h h'' :=
  ⟨b.next.trans a.next, b.prev.trans a.prev, b.flags.trans a.flags, b.sizeClass.trans a.sizeClass,
    b.start.trans a.start, b.size.trans a.size⟩

theorem sameStore_markAsUsed (h : LogicalPageHeader) : SameStore h h.markAsUsed :=
  ⟨rfl, rfl, rfl, rfl, rfl⟩
theorem sameStore_markAsNonUsed (h : LogicalPageHeader) : SameStore h h.markAsNonUsed :=
  ⟨rfl, rfl, rfl, rfl, rfl⟩

def bufferEnd (h : LogicalPageHeader) : Nat := h.logicalPageStartAddress + h.logicalPageSize

theorem ownsPointer_eq_true {h : LogicalPageHeader} {ptr : Nat} (hb : h.bufferEnd < 2^64) :
    h.ownsPointer ptr = true ↔ h.logicalPageStartAddress ≤ ptr ∧ ptr < h.bufferEnd := by
  rw [ownsPointer, add64_of_lt hb]
  simp [bufferEnd]

end LogicalPageHeader

def isAddressPageAllocationGranularityAligned (address : Nat) : Bool :=
  address &&& (pageAllocationGranularity - 1) == 0

theorem isAddressPageAllocationGranularityAligned_iff (address : Nat) :
    isAddressPageAllocationGranularityAligned address = true ↔ address % 4096 = 0 := by
  have h := Nat.and_two_pow_sub_one_eq_mod address 12
  norm_num at h
  simp [isAddressPageAllocationGranularityAligned, pageAllocationGranularity, h]

/-- A page object together with the memory whose buffer it manages. -/
structure Page where
  header : LogicalPageHeader
  bytes : Mem

/-- A block in the hands of a client: its address and the bytes granted there. -/
structure Allocation where
  ptr : Nat
  size : Nat
  deriving DecidableEq, Repr

namespace Allocation

def Holds (x : Allocation) (byte : Nat) : Prop := x.ptr ≤ byte ∧ byte < x.ptr + x.size

def Apart (x y : Allocation) : Prop := x.ptr + x.size ≤ y.ptr ∨ y.ptr + y.size ≤ x.ptr

theorem Apart.symm {x y : Allocation} (h : x.Apart y) : y.Apart x := Or.symm h

end Allocation

/-- The template interface a segment uses a page type through. A `none` from the
last three operations means that the walk over the free list does not end. -/
structure LogicalPageType where
  objectSize : Nat
  nodeSize : Nat
  supportsAnySize : Bool
  create : (buffer bufferSize sizeClass : Nat) → Mem → Option Page
  allocate : Nat → Page → Option (Nat × Page)
  deallocate : Nat → Page → Option Page
  getUsableSize : Nat → Page → Nat

/-- A page operation touches its own buffer only, and no byte of the live list given. -/
structure Confined (p p' : Page) (live : List Allocation) : Prop where
  frame : p.header.SameFrame p'.header
  outside : ∀ b, b < p.header.logicalPageStartAddress ∨ p.header.bufferEnd ≤ b →
    p'.bytes b = p.bytes b
  payload : ∀ x ∈ live, ∀ b, x.Holds b → p'.bytes b = p.bytes b

/-- What a page type promises its segment, with the live allocations as ghost state. -/
structure PageLaws (T : LogicalPageType) where
  Inv : Page → List Allocation → Prop
  granted : (sizeClass size : Nat) → Nat
  /-- The first address and the size of the block a deallocation of the pointer puts back. -/
  block : (ptr : Nat) → Page → Nat × Nat
  /-- The number of free bytes from a node of the free list on. -/
  freeSize : (sizeClass : Nat) → Mem → (node : Nat) → Nat
  objectSize_eq : T.objectSize = logicalPageHeaderSize
  fixed : T.supportsAnySize = false → (∀ c n, granted c n = c) ∧
    ∀ {p live x}, Inv p live → x ∈ live → x.size = p.header.sizeClass
  perm : ∀ {p live live'}, Inv p live → live.Perm live' → Inv p live'
  congr : ∀ {p live h' m'}, Inv p live → p.header.SameStore h' →
    (∀ b, p.header.logicalPageStartAddress ≤ b → b < p.header.bufferEnd →
      (∀ x ∈ live, ¬ x.Holds b) → m' b = p.bytes b) → Inv ⟨h', m'⟩ live
  create_inv : ∀ {buffer size sizeClass m p}, T.create buffer size sizeClass m = some p →
    buffer + size < 2^64 → Inv p [] ∧ p.header.nextLogicalPagePtr = 0 ∧
      p.header.prevLogicalPagePtr = 0 ∧ p.header.sizeClass = sizeClass ∧
      p.header.logicalPageStartAddress = buffer ∧ p.header.logicalPageSize = size ∧
      ∀ b, b < buffer ∨ buffer + size ≤ b → p.bytes b = m b
  create_aligned : ∀ {buffer size sizeClass m}, (T.create buffer size sizeClass m).isSome →
    ∀ buffer' m', buffer' ≠ 0 → buffer' < 2^64 → T.objectSize ≤ buffer' →
      (buffer' - T.objectSize) % 4096 = 0 → (T.create buffer' size sizeClass m').isSome
  create_shift : ∀ {buffer size sizeClass m}, (T.create buffer size sizeClass m).isSome →
    T.objectSize ≤ buffer → ∀ k m', (T.create (buffer + k * 4096) size sizeClass m').isSome
  create_class : ∀ {buffer size sizeClass m}, (T.create buffer size sizeClass m).isSome →
    T.supportsAnySize = false → 0 < sizeClass ∧ sizeClass ≤ size
  allocate_spec : ∀ {p live size}, Inv p live → size + 32 < 2^64 →
    ∃ ptr p', T.allocate size p = some (ptr, p') ∧
      (ptr = 0 ∧ p' = p ∨
        ptr ≠ 0 ∧ Inv p' (⟨ptr, granted p.header.sizeClass size⟩ :: live) ∧ Confined p p' live)
  deallocate_spec : ∀ {p x live ptr}, Inv p (x :: live) → p.header.ownsPointer ptr = true →
    block ptr p = block x.ptr p →
    ∃ p', T.deallocate ptr p = some p' ∧ Inv p' live ∧ Confined p p' live ∧
      p'.header.usedSize + (block ptr p).2 = p.header.usedSize
  deallocate_frees : ∀ {p p' x live ptr}, Inv p (x :: live) → p.header.ownsPointer ptr = true →
    block ptr p = block x.ptr p → T.deallocate ptr p = some p' →
    ∃ nodes node, Path (read64 p'.bytes) p'.header.head nodes 0 ∧ node ∈ nodes ∧
      node ≤ x.ptr ∧ x.ptr + x.size ≤ node + freeSize p'.header.sizeClass p'.bytes node
  inside : ∀ {p live x}, Inv p live → x ∈ live →
    0 < x.size ∧ p.header.logicalPageStartAddress ≤ x.ptr ∧ x.ptr + x.size ≤ p.header.bufferEnd
  apart : ∀ {p live}, Inv p live → live.Pairwise Allocation.Apart
  used_eq_zero : ∀ {p live}, Inv p live → (p.header.usedSize = 0 ↔ live = [])
  free_nodes : ∀ {p live}, Inv p live → ∃ nodes, Path (read64 p.bytes) p.header.head nodes 0 ∧
    0 ∉ nodes ∧ ∀ a ∈ nodes, p.header.logicalPageStartAddress ≤ a ∧
      a + T.nodeSize ≤ p.header.bufferEnd ∧ ∀ x ∈ live, a + T.nodeSize ≤ x.ptr ∨ x.ptr + x.size ≤ a
  aligned : ∀ {p live x}, Inv p live →
    (T.supportsAnySize = false →
      p.header.logicalPageStartAddress % 16 = 0 ∧ p.header.sizeClass % 16 = 0) →
    x ∈ live → x.ptr % 16 = 0

end Metamalloc.Pages
