import Metamalloc.Library.Tiling
import Metamalloc.Pages.LogicalPageHeader

/-! The page for blocks of any size: a first-fit free list threaded through the
free blocks, with a 16-byte header in front of every payload. -/
namespace Metamalloc.Pages.LogicalPageAnySize
open Library.Word64 Library.ByteMemory

def objectSize : Nat := 64
abbrev nodeSize : Nat := 16
abbrev minAlignmentSize : Nat := 16

inductive CoalescePolicy where
  | coalesce | noCoalescing
  deriving DecidableEq, Repr

/-- A node is a free-list node or, once allocated, the header of the allocation: the first word holds the
next pointer or the padding, the second the block size. -/
def getNextPointer (m : Mem) (node : Nat) : Nat := read64 m node
def setNextPointer (m : Mem) (node value : Nat) : Mem := write64 m node value
def clearNextPointer (m : Mem) (node : Nat) : Mem := write64 m node 0
def getBlockSize (m : Mem) (node : Nat) : Nat := read64 m (node + 8)
def setBlockSize (m : Mem) (node value : Nat) : Mem := write64 m (node + 8) value
def getPaddingSize (m : Mem) (node : Nat) : Nat := read64 m node
def setPaddingSize (m : Mem) (node value : Nat) : Mem := write64 m node value

def calculatePaddingNeeded (baseAddress alignment : Nat) : Nat :=
  let headerEndAddress := add64 baseAddress nodeSize
  let remainder := headerEndAddress % alignment
  if remainder ≠ 0 then alignment - remainder else 0

def insert (previousNode newNode : Nat) (p : Page) : Page :=
  if previousNode = 0 then
    { header := { p.header with head := newNode }
      bytes := if p.header.head ≠ 0 then setNextPointer p.bytes newNode p.header.head
        else clearNextPointer p.bytes newNode }
  else if getNextPointer p.bytes previousNode = 0 then
    -- becomes the last element
    { p with bytes := clearNextPointer (setNextPointer p.bytes previousNode newNode) newNode }
  else
    { p with
      bytes := setNextPointer (setNextPointer p.bytes newNode (getNextPointer p.bytes previousNode))
        previousNode newNode }

def remove (previousNode deleteNode : Nat) (p : Page) : Page :=
  if previousNode = 0 then
    if getNextPointer p.bytes deleteNode = 0 then { p with header := { p.header with head := 0 } }
    else { p with header := { p.header with head := getNextPointer p.bytes deleteNode } }
  else { p with bytes := setNextPointer p.bytes previousNode (getNextPointer p.bytes deleteNode) }

/-- First fit. The inner result is the previous node, the found node and its padding;
the search is given up when the fuel is used up before the list ends. -/
def findInternal (m : Mem) (size alignment : Nat) :
    (fuel iterator iteratorPrevious : Nat) → Option (Option (Nat × Nat × Nat))
  | 0, _, _ => none
  | fuel+1, iterator, iteratorPrevious =>
    if iterator = 0 then some none
    else
      let padding := calculatePaddingNeeded iterator alignment
      let requiredSpace := add64 (add64 size nodeSize) padding
      if requiredSpace ≤ getBlockSize m iterator then
        some (some (iteratorPrevious, iterator, padding))
      else
        let next := getNextPointer m iterator
        findInternal m size alignment fuel next (if next ≠ 0 then iterator else iteratorPrevious)

/-- More steps than a page of this many bytes has nodes. -/
def walkFuel (p : Page) : Nat := p.header.logicalPageSize

def find (size alignment : Nat) (p : Page) : Option (Option (Nat × Nat × Nat)) :=
  findInternal p.bytes size alignment (walkFuel p) p.header.head 0

def create (buffer bufferSize sizeClass : Nat) (m : Mem) : Option Page :=
  if bufferSize > 0xFFFFFFFFFFFFFFFF then none
  else if bufferSize ≤ nodeSize ∨ buffer = 0 then none
  else if !isAddressPageAllocationGranularityAligned buffer &&
      !isAddressPageAllocationGranularityAligned (sub64 buffer objectSize) then none
  else
    some (insert 0 buffer ⟨.ofBuffer buffer bufferSize sizeClass,
      clearNextPointer (setBlockSize m buffer bufferSize) buffer⟩)

/-- The total size of the block taken at a node, and the page with the excess given back. -/
def takeBlock (node padding allocationSize : Nat) (p : Page) : Nat × Page :=
  let totalSize := add64 (add64 allocationSize padding) nodeSize
  let excessBytes := sub64 (getBlockSize p.bytes node) totalSize
  if nodeSize ≤ excessBytes then
    let newFreeNode := add64 node totalSize
    (totalSize, insert node newFreeNode { p with bytes := setBlockSize p.bytes newFreeNode excessBytes })
  else if 0 < excessBytes ∧ excessBytes < nodeSize then (add64 totalSize excessBytes, p)
  else (totalSize, p)

/-- The layout of an allocated block is padding, header, payload. -/
def writeAllocation (node padding totalSize : Nat) (p : Page) : Nat × Page :=
  let headerAddress := add64 node padding
  let payloadAddress := add64 headerAddress nodeSize
  (payloadAddress,
    { header := { p.header with usedSize := add64 p.header.usedSize totalSize }
      bytes := setPaddingSize (setBlockSize p.bytes headerAddress totalSize) headerAddress padding })

def allocate (size : Nat) (p : Page) : Option (Nat × Page) :=
  let allocationSize := if size < nodeSize then nodeSize else size
  match find allocationSize minAlignmentSize p with
  | none => none
  | some none => some (0, p)
  | some (some (previousNode, affectedNode, padding)) =>
    let (totalSize, q) := takeBlock affectedNode padding allocationSize p
    some (writeAllocation affectedNode padding totalSize (remove previousNode affectedNode q))

/-- The node in front of the first one above the pointer, or the last node. -/
def insertPosition (m : Mem) (ptr : Nat) : (fuel iterator iteratorPrevious : Nat) → Option Nat
  | 0, _, _ => none
  | fuel+1, iterator, iteratorPrevious =>
    if iterator = 0 then some iteratorPrevious
    else if ptr < iterator then some iteratorPrevious
    else insertPosition m ptr fuel (getNextPointer m iterator) iterator

/-- Adds a node's block to the block in front of it and drops the node. -/
def absorb (node next : Nat) (p : Page) : Page :=
  let q := remove node next { p with
    bytes := setBlockSize p.bytes node (add64 (getBlockSize p.bytes node) (getBlockSize p.bytes next)) }
  { q with header := { q.header with lastUsedNode := 0 } }

def coalesceNext (freeNode : Nat) (p : Page) : Page :=
  if getNextPointer p.bytes freeNode ≠ 0 ∧
      add64 freeNode (getBlockSize p.bytes freeNode) = getNextPointer p.bytes freeNode then
    absorb freeNode (getNextPointer p.bytes freeNode) p
  else p

def coalescePrevious (previousNode freeNode : Nat) (p : Page) : Page :=
  if previousNode ≠ 0 ∧ add64 previousNode (getBlockSize p.bytes previousNode) = freeNode then
    absorb previousNode freeNode p
  else p

def coalesce (previousNode freeNode : Nat) (p : Page) : Page :=
  coalescePrevious previousNode freeNode (coalesceNext freeNode p)

/-- The node insertion happens after and the `iterator_previous` the merge later sees:
with one free node the search is skipped and the merge sees no previous node. -/
def deallocatePosition (ptr : Nat) (p : Page) : Option (Nat × Nat) :=
  let head := p.header.head
  if head ≠ 0 then
    if getNextPointer p.bytes head = 0 then some (head, 0)
    else (insertPosition p.bytes ptr (walkFuel p) head 0).map fun previous => (previous, previous)
  else some (0, 0)

def subtractUsedSize (freeNode : Nat) (p : Page) : Page :=
  { p with header := { p.header with
      usedSize := sub64 p.header.usedSize (getBlockSize p.bytes freeNode) } }

def deallocate (policy : CoalescePolicy) (ptr : Nat) (p : Page) : Option Page :=
  if !p.header.ownsPointer ptr then some p
  else
    let headerAddress := sub64 ptr nodeSize
    let paddingSize := getPaddingSize p.bytes headerAddress
    let freeNode := sub64 headerAddress paddingSize
    let q : Page := { p with
      bytes := clearNextPointer
        (setBlockSize p.bytes freeNode (getBlockSize p.bytes headerAddress)) freeNode }
    match deallocatePosition ptr q with
    | none => none
    | some (insertAfter, iteratorPrevious) =>
      let q := subtractUsedSize freeNode (insert insertAfter freeNode q)
      match policy with
      | .coalesce => some (coalesce iteratorPrevious freeNode q)
      | .noCoalescing => some q

/-- The block a deallocation puts back is the one the header in front of the pointer tells of. -/
def freedBlock (ptr : Nat) (p : Page) : Nat × Nat :=
  let headerAddress := sub64 ptr nodeSize
  (sub64 headerAddress (getPaddingSize p.bytes headerAddress), getBlockSize p.bytes headerAddress)

def getUsableSize (ptr : Nat) (p : Page) : Nat :=
  sub64 (getBlockSize p.bytes (sub64 ptr nodeSize)) nodeSize

def totalAvailableMemory (m : Mem) : (fuel iterator : Nat) → Option Nat
  | 0, _ => none
  | fuel+1, iterator =>
    if iterator = 0 then some 0
    else (totalAvailableMemory m fuel (getNextPointer m iterator)).map
      (add64 (getBlockSize m iterator))

def isSane (p : Page) : Option Bool :=
  (totalAvailableMemory p.bytes (walkFuel p) p.header.head).map fun total =>
    p.header.logicalPageSize == add64 total p.header.usedSize

def pageType (policy : CoalescePolicy) : LogicalPageType where
  objectSize := objectSize
  nodeSize := nodeSize
  supportsAnySize := true
  create := create
  allocate := allocate
  deallocate := deallocate policy
  getUsableSize := getUsableSize

end Metamalloc.Pages.LogicalPageAnySize
