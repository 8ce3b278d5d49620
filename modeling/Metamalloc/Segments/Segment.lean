import Metamalloc.Pages.LogicalPage
import Metamalloc.Pages.AnySizeLaws

/-! A segment: a doubly linked list of logical pages, with growth, recycling and,
for thread-local use, a queue of pointers other threads gave back.
A result `none` stands for undefined behaviour: a null pointer is followed, a
division by zero is executed, or a loop does not end. -/
namespace Metamalloc.Segments
open Library.Word64 Library.ByteMemory Pages

inductive ConcurrencyPolicy where
  | threadLocal | central | singleThread
  deriving DecidableEq, Repr

inductive PageRecyclingPolicy where
  | immediate | deferred
  deriving DecidableEq, Repr

/-- The template arguments of `Segment`. -/
structure SegmentType where
  concurrency : ConcurrencyPolicy
  page : LogicalPageType
  recycling : PageRecyclingPolicy
  bufferAlignedToLogicalPageSize : Bool

/-- The `double` growth coefficient, through the two uses the code makes of it. -/
structure GrowCoefficient where
  positive : Bool
  /-- The product with a page count, cast to `size_t`. -/
  scaled : Nat → Nat

def GrowCoefficient.zero : GrowCoefficient := ⟨false, fun _ => 0⟩
def GrowCoefficient.one : GrowCoefficient := ⟨true, id⟩

structure SegmentCreationParameters where
  logicalPageSize : Nat := 0
  logicalPageCount : Nat := 0
  pageRecyclingThreshold : Nat := 0
  deallocationQueueInitialCapacity : Nat := 65536
  sizeClass : Nat := 0
  growCoefficient : GrowCoefficient := .zero

/-- The members that only `create` sets. -/
structure SegmentConfig where
  sizeClass : Nat := 0
  logicalPageSize : Nat := 0
  maxObjectSize : Nat := 0
  bufferLength : Nat := 0
  pageRecyclingThreshold : Nat := 0
  growCoefficient : GrowCoefficient := .one

structure Segment extends SegmentConfig where
  logicalPageCount : Nat := 0
  head : Nat := 0
  tail : Nat := 0
  lastUsed : Nat := 0
  /-- The pointers in the queue, the next one to be popped first. -/
  deallocationQueue : List Nat := []

/-- The memory segments share: the page objects by address, all other bytes, and the
record of the pages obtained and of the calls of `release_to_system`. -/
structure Memory where
  bytes : Mem
  pages : Nat → LogicalPageHeader
  created : List Nat := []
  released : List (Nat × Nat) := []

namespace Memory

def page (mem : Memory) (a : Nat) : Page := ⟨mem.pages a, mem.bytes⟩

def setHeader (mem : Memory) (a : Nat) (h : LogicalPageHeader) : Memory :=
  { mem with pages := Function.update mem.pages a h }

def setPage (mem : Memory) (a : Nat) (p : Page) : Memory :=
  { mem with bytes := p.bytes, pages := Function.update mem.pages a p.header }

/-- A page object made over the address, marked as used. -/
def placePage (mem : Memory) (a : Nat) (p : Page) : Memory :=
  { mem.setPage a { p with header := p.header.markAsUsed } with created := a :: mem.created }

def getNext (mem : Memory) (a : Nat) : Nat := (mem.pages a).nextLogicalPagePtr
def getPrevious (mem : Memory) (a : Nat) : Nat := (mem.pages a).prevLogicalPagePtr

def setNext (mem : Memory) (a next : Nat) : Memory :=
  mem.setHeader a ((mem.pages a).setNextLogicalPage next)

def setPrevious (mem : Memory) (a previous : Nat) : Memory :=
  mem.setHeader a ((mem.pages a).setPreviousLogicalPage previous)

def releaseToSystem (mem : Memory) (address size : Nat) : Memory :=
  { mem with released := (address, size) :: mem.released }

end Memory

/-- What the arena answers during one call, by the size asked for; null is a refusal. -/
structure ArenaAnswers where
  request : Nat → Nat
  retry : Nat → Nat

/-- No walk over addresses takes more steps without going in circles. -/
@[irreducible] def walkLimit : Nat := 2^64

def pointerPageSize : Nat := 65536

def isSizeAMultipleOfPageAllocationGranularity (input : Nat) : Bool :=
  input &&& (pageAllocationGranularity - 1) == 0

namespace Segment
variable (T : SegmentType)

/-- Constructs a page object and its page; a failure releases the start of the growth buffer. -/
def createNewLogicalPage (buffer logicalPageBuffer : Nat) (s : Segment) (mem : Memory) :
    Bool × Segment × Memory :=
  match T.page.create (add64 logicalPageBuffer T.page.objectSize)
      (sub64 s.logicalPageSize T.page.objectSize) s.sizeClass mem.bytes with
  | none => (false, s, (mem.setHeader logicalPageBuffer {}).releaseToSystem buffer s.logicalPageSize)
  | some p => (true, { s with logicalPageCount := add64 s.logicalPageCount 1 },
      mem.placePage logicalPageBuffer p)

def linkAfter (previousPage page : Nat) (mem : Memory) : Memory :=
  (mem.setNext previousPage page).setPrevious page previousPage

/-- The pages behind the first one; the result is the last page made. -/
def growRest (buffer : Nat) : List Nat → (previousPage : Nat) → Segment → Memory →
    Option Nat × Segment × Memory
  | [], previousPage, s, mem => (some previousPage, s, mem)
  | i :: rest, previousPage, s, mem =>
    let page := add64 buffer (mul64 i s.logicalPageSize)
    match createNewLogicalPage T buffer page s mem with
    | (false, s, mem) => (none, s, mem)
    | (true, s, mem) => growRest buffer rest page s (linkAfter previousPage page mem)

/-- The first page made, null on failure. -/
def grow (buffer logicalPageCount : Nat) (s : Segment) (mem : Memory) :
    Option (Nat × Segment × Memory) :=
  let previousPage := s.tail
  match createNewLogicalPage T buffer buffer s mem with
  | (false, s, mem) => some (0, s, mem)
  | (true, s, mem) =>
    if s.head ≠ 0 ∧ previousPage = 0 then none
    else
      let (s, mem) := if s.head = 0 then ({ s with head := buffer, tail := buffer }, mem)
        else (s, linkAfter previousPage buffer mem)
      match growRest T buffer (List.range' 1 (logicalPageCount - 1)) buffer s mem with
      | (none, s, mem) => some (0, s, mem)
      | (some last, s, mem) => some (buffer, { s with tail := last }, mem)

/-- The result says whether the creation succeeded. The arena is not null; the queue memory
is what the metadata allocator can provide. -/
def create (externalBuffer : Nat) (queueMemory : Bool) (params : SegmentCreationParameters)
    (s : Segment) (mem : Memory) : Option (Bool × Segment × Memory) :=
  if params.logicalPageSize = 0 ∨
      !isSizeAMultipleOfPageAllocationGranularity params.logicalPageSize ∨
      params.logicalPageCount = 0 ∨ params.logicalPageSize ≤ T.page.objectSize ∨
      externalBuffer = 0 then some (false, s, mem)
  else if T.concurrency = .threadLocal ∧
      (params.deallocationQueueInitialCapacity / pointerPageSize = 0 ∨ !queueMemory) then
    some (false, s, mem)
  else
    let s := { s with
      logicalPageSize := params.logicalPageSize
      maxObjectSize := params.logicalPageSize - logicalPageHeaderSize
      sizeClass := params.sizeClass
      pageRecyclingThreshold := params.pageRecyclingThreshold
      growCoefficient := params.growCoefficient }
    match grow T externalBuffer params.logicalPageCount s mem with
    | none => none
    | some (first, s, mem) =>
      if first = 0 then some (false, s, mem)
      else if T.concurrency = .threadLocal then
        some (true, { s with bufferLength := mul64 s.logicalPageSize params.logicalPageCount }, mem)
      else some (true, s, mem)

def removeLogicalPage (affected : Nat) (s : Segment) (mem : Memory) : Segment × Memory :=
  let next := mem.getNext affected
  let previous := mem.getPrevious affected
  let lastUsed := if affected = s.lastUsed then
      if previous ≠ 0 then previous else if next ≠ 0 then next else 0
    else s.lastUsed
  let s := { s with lastUsed := lastUsed, logicalPageCount := sub64 s.logicalPageCount 1 }
  let (s, mem) := if previous = 0 then
      ({ s with head := next, tail := if next = 0 ∨ mem.getNext next = 0 then next else s.tail }, mem)
    else
      ({ s with tail := if s.tail = affected then previous else s.tail }, mem.setNext previous next)
  (s, if next ≠ 0 then mem.setPrevious next previous else mem)

def addLogicalPage (logicalPage : Nat) (s : Segment) (mem : Memory) : Segment × Memory :=
  let (s, mem) := if s.tail ≠ 0 then (s, linkAfter s.tail logicalPage mem)
    else ({ s with head := logicalPage, tail := logicalPage }, mem)
  ({ s with logicalPageCount := add64 s.logicalPageCount 1 }, mem.setNext logicalPage 0)

def recycleLogicalPage (affected : Nat) (s : Segment) (mem : Memory) : Segment × Memory :=
  let (s, mem) := removeLogicalPage affected s mem
  (s, mem.releaseToSystem affected s.logicalPageSize)

/-- The segment itself comes first, the one the pages are taken from second. -/
def transferLoop : (fuel iter : Nat) → Segment → Segment → Memory →
    Option (Segment × Segment × Memory)
  | 0, _, _, _, _ => none
  | fuel+1, iter, s, source, mem =>
    if iter = 0 then some (s, source, mem)
    else
      let iterNext := mem.getNext iter
      let (s, mem) := addLogicalPage iter s mem
      let (source, mem) := removeLogicalPage iter source mem
      transferLoop fuel iterNext s source mem

def transferLogicalPagesFrom (source s : Segment) (mem : Memory) :
    Option (Segment × Segment × Memory) :=
  transferLoop walkLimit source.head s source mem

def recycleFreeLoop : (fuel numLogicalPagesToRecycle iter iterPrevious : Nat) → Segment → Memory →
    Option (Segment × Memory)
  | 0, _, _, _, _, _ => none
  | fuel+1, num, iter, iterPrevious, s, mem =>
    if num = 0 then some (s, mem)
    else if iter = 0 then none
    else if (mem.pages iter).canBeRecycled then
      let (s, mem) := recycleLogicalPage iter s mem
      if iterPrevious = 0 then none
      else recycleFreeLoop fuel (num - 1) (mem.getNext iterPrevious) iterPrevious s mem
    else recycleFreeLoop fuel num (mem.getNext iter) iter s mem

def recycleFreeLogicalPages (s : Segment) (mem : Memory) : Option (Segment × Memory) :=
  recycleFreeLoop walkLimit (sub64 s.logicalPageCount s.pageRecyclingThreshold) s.head 0 s mem

def getLogicalPageFromAddress (ptr logicalPageSize : Nat) : Nat := ptr &&& mask64 logicalPageSize

def getSizeClassFromAddress (ptr logicalPageSize : Nat) (mem : Memory) : Nat :=
  (mem.pages (getLogicalPageFromAddress ptr logicalPageSize)).sizeClass

/-- The listed page around an address, null when there is none. -/
def findLogicalPage (logicalPageSize address : Nat) (mem : Memory) : (fuel iter : Nat) → Option Nat
  | 0, _ => none
  | fuel+1, iter =>
    if iter = 0 then some 0
    else if iter ≤ address ∧ address < add64 iter logicalPageSize then some iter
    else findLogicalPage logicalPageSize address mem fuel (mem.getNext iter)

def ownsPointer (ptr : Nat) (s : Segment) (mem : Memory) : Option Bool :=
  if T.concurrency = .threadLocal then
    some (s.head ≤ ptr && ptr < add64 s.head s.bufferLength)
  else (findLogicalPage s.logicalPageSize ptr mem walkLimit s.head).map (· != 0)

def getUsableSize (ptr : Nat) (s : Segment) (mem : Memory) : Option Nat :=
  if !T.page.supportsAnySize then some s.sizeClass
  else (findLogicalPage s.logicalPageSize ptr mem walkLimit s.head).map fun page =>
    if page = 0 then 0 else T.page.getUsableSize ptr (mem.page page)

/-- What both lookups do with the page they have found. -/
def deallocateOnPage (affected ptr : Nat) (s : Segment) (mem : Memory) : Option (Segment × Memory) :=
  match T.page.deallocate ptr (mem.page affected) with
  | none => none
  | some p =>
    let mem := mem.setPage affected p
    if p.header.usedSize = 0 then
      let mem := mem.setHeader affected p.header.markAsNonUsed
      if T.recycling = .immediate ∧ s.pageRecyclingThreshold < s.logicalPageCount then
        some (recycleLogicalPage affected s mem)
      else some (s, mem)
    else some (s, mem)

def deallocateFromAlignedLogicalPage (ptr : Nat) (s : Segment) (mem : Memory) :
    Option (Segment × Memory) :=
  deallocateOnPage T (getLogicalPageFromAddress ptr s.logicalPageSize) ptr s mem

def deallocateBySearch (ptr : Nat) (s : Segment) (mem : Memory) : Option (Segment × Memory) :=
  match findLogicalPage s.logicalPageSize ptr mem walkLimit s.head with
  | none => none
  | some page => if page = 0 then some (s, mem) else deallocateOnPage T page ptr s mem

def deallocateInternal (ptr : Nat) (s : Segment) (mem : Memory) : Option (Segment × Memory) :=
  if T.bufferAlignedToLogicalPageSize then deallocateFromAlignedLogicalPage T ptr s mem
  else deallocateBySearch T ptr s mem

def pushDeallocationQueue (ptr : Nat) (s : Segment) : Segment :=
  { s with deallocationQueue := ptr :: s.deallocationQueue }

def popDeallocationQueue (s : Segment) : Nat × Segment :=
  match s.deallocationQueue with
  | [] => (0, s)
  | ptr :: rest => (ptr, { s with deallocationQueue := rest })

def processQueueLoop (returnInitialPointer : Bool) : (fuel ret : Nat) → Segment → Memory →
    Option (Nat × Segment × Memory)
  | 0, _, _, _ => none
  | fuel+1, ret, s, mem =>
    let (pointer, s) := popDeallocationQueue s
    if pointer = 0 then some (ret, s, mem)
    else if returnInitialPointer ∧ ret = 0 then processQueueLoop returnInitialPointer fuel pointer s mem
    else
      match deallocateInternal T pointer s mem with
      | none => none
      | some (s, mem) => processQueueLoop returnInitialPointer fuel ret s mem

/-- The loop as one call with no other thread in between. -/
def processDeallocationQueue (returnInitialPointer : Bool) (s : Segment) (mem : Memory) :
    Option (Nat × Segment × Memory) :=
  processQueueLoop T returnInitialPointer (s.deallocationQueue.length + 1) 0 s mem

def deallocate (ptr : Nat) (s : Segment) (mem : Memory) : Option (Segment × Memory) :=
  if s.head = 0 then some (s, mem)
  else if T.concurrency = .threadLocal then some (pushDeallocationQueue ptr s, mem)
  else deallocateInternal T ptr s mem

/-- Asks the pages from one on, up to the one to stop at. The inner result is the page
that served and the pointer it gave out. -/
def searchPages (size stop : Nat) : (fuel iter : Nat) → Memory → Option (Option (Nat × Nat) × Memory)
  | 0, _, _ => none
  | fuel+1, iter, mem =>
    if iter = stop then some (none, mem)
    else if iter = 0 then none
    else
      match T.page.allocate size (mem.page iter) with
      | none => none
      | some (ret, p) =>
        let mem := mem.setPage iter p
        if ret ≠ 0 then some (some (iter, ret), mem)
        else searchPages size stop fuel (mem.getNext iter) mem

/-- Next fit: from the last used page to the end, then from the head up to it. -/
def searchListed (size : Nat) (s : Segment) (mem : Memory) : Option (Option (Nat × Nat) × Memory) :=
  match searchPages T size 0 walkLimit (if s.lastUsed ≠ 0 then s.lastUsed else s.head) mem with
  | some (none, mem) =>
    if s.lastUsed ≠ 0 then searchPages T size s.lastUsed walkLimit s.head mem else some (none, mem)
  | result => result

/-- `SizeUtilities::get_required_page_count_for_allocation`; the quotient of the two
counts is rounded up. -/
def getRequiredPageCountForAllocation (pageSize pageHeaderSize objectSize objectCount : Nat) :
    Option Nat :=
  if objectSize = 0 then none
  else
    let objectCountPerPage := (pageSize - pageHeaderSize) / objectSize
    if objectCountPerPage = 0 then none
    else
      let neededPageCount := (objectCount + objectCountPerPage - 1) / objectCountPerPage
      some (if neededPageCount = 0 then 1 else neededPageCount)

/-- The desired and the minimum number of new pages. -/
def calculateQuantities (size : Nat) (s : Segment) : Option (Nat × Nat) :=
  let minimum := if T.page.supportsAnySize then
      getRequiredPageCountForAllocation s.logicalPageSize T.page.objectSize size 1
    else if s.sizeClass = 0 then none
    else getRequiredPageCountForAllocation s.logicalPageSize T.page.objectSize s.sizeClass
      (size / s.sizeClass)
  minimum.map fun minimum =>
    if s.growCoefficient.positive then
      let desired := s.growCoefficient.scaled s.logicalPageCount
      (if desired < minimum then minimum else desired, minimum)
    else (minimum, minimum)

/-- The buffer the arena gives for the desired count, or for the minimum after a refusal. -/
def requestBuffer (arena : ArenaAnswers) (s : Segment) (desired minimum : Nat) : Nat :=
  let newBuffer := arena.request (mul64 s.logicalPageSize desired)
  if newBuffer = 0 ∧ minimum < desired then arena.retry (mul64 s.logicalPageSize minimum)
  else newBuffer

/-- The unbounded policies grow by the desired count, whichever request was granted. -/
def growAndAllocate (arena : ArenaAnswers) (size : Nat) (s : Segment) (mem : Memory) :
    Option (Nat × Segment × Memory) :=
  match calculateQuantities T size s with
  | none => none
  | some (desired, minimum) =>
    let newBuffer := requestBuffer arena s desired minimum
    if newBuffer = 0 then some (0, s, mem)
    else
      match grow T newBuffer desired s mem with
      | none => none
      | some (first, s, mem) =>
        if first = 0 then some (0, s, mem)
        else
          match T.page.allocate size (mem.page first) with
          | none => none
          | some (ret, p) =>
            let mem := mem.setPage first p
            some (ret, if ret ≠ 0 then { s with lastUsed := first } else s, mem)

def allocateInternal (arena : ArenaAnswers) (size : Nat) (s : Segment) (mem : Memory) :
    Option (Nat × Segment × Memory) :=
  if s.maxObjectSize < size then some (0, s, mem)
  else
    match searchListed T size s mem with
    | none => none
    | some (some (page, ret), mem) => some (ret, { s with lastUsed := page }, mem)
    | some (none, mem) =>
      if T.concurrency = .threadLocal then some (0, s, mem)
      else growAndAllocate T arena size s mem

def allocate (arena : ArenaAnswers) (size : Nat) (s : Segment) (mem : Memory) :
    Option (Nat × Segment × Memory) :=
  if T.concurrency = .threadLocal then
    match processDeallocationQueue T (!T.page.supportsAnySize) s mem with
    | none => none
    | some (pointer, s, mem) =>
      if pointer ≠ 0 then some (pointer, s, mem) else allocateInternal T arena size s mem
  else allocateInternal T arena size s mem

def sweep (logicalPageSize : Nat) : (fuel iter : Nat) → Memory → Option Memory
  | 0, _, _ => none
  | fuel+1, iter, mem =>
    if iter = 0 then some mem
    else
      let next := mem.getNext iter
      sweep logicalPageSize fuel next (if (mem.pages iter).usedSize = 0 then
        mem.releaseToSystem iter logicalPageSize else mem)

/-- The part of `destroy` behind the drain of the queue. -/
def releasePages (s : Segment) (mem : Memory) : Option (Segment × Memory) :=
  (sweep s.logicalPageSize walkLimit s.head mem).map fun mem => ({ s with head := 0, tail := 0 }, mem)

def destroy (s : Segment) (mem : Memory) : Option (Segment × Memory) :=
  if T.concurrency = .threadLocal then
    match processDeallocationQueue T false s mem with
    | none => none
    | some (_, s, mem) => releasePages s mem
  else releasePages s mem

end Segment
end Metamalloc.Segments
