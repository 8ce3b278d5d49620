import Metamalloc.Segments.SegmentGrowth

/-! A segment among its clients: threads that call `allocate` and `deallocate`, with the
push and the pop of the deallocation queue as the atomic steps between them. -/
namespace Metamalloc.Segments
open Library.Word64 Library.ByteMemory Library.LinkedList Pages

/-- The page classes a segment is instantiated with. -/
inductive PageKind where
  | logicalPage
  | logicalPageAnySize (policy : LogicalPageAnySize.CoalescePolicy)
  deriving DecidableEq

def PageKind.pageType : PageKind → LogicalPageType
  | logicalPage => LogicalPage.pageType
  | logicalPageAnySize policy => LogicalPageAnySize.pageType policy

def PageKind.laws : (kind : PageKind) → PageLaws kind.pageType
  | logicalPage => LogicalPage.laws
  | logicalPageAnySize policy => LogicalPageAnySize.laws policy

/-- What a drain of the deallocation queue is for. -/
inductive Goal where
  | allocate (size : Nat)
  | destroy
  deriving DecidableEq

/-- Where the owner of a thread-local segment is in its code. Null stands for no pointer. -/
inductive Control where
  | idle
  /-- Between two iterations of the drain, with the pointer kept for the caller. -/
  | draining (goal : Goal) (ret : Nat)
  /-- A pointer was popped and is not yet deallocated. -/
  | freeing (goal : Goal) (ret pointer : Nat)
  /-- The queue was found empty. -/
  | drained (goal : Goal) (ret : Nat)
  | destroyed
  deriving DecidableEq

/-- The pointers the owner holds in its local variables. -/
def Control.pointers : Control → List Nat
  | .draining _ ret => if ret = 0 then [] else [ret]
  | .freeing _ ret pointer => pointer :: if ret = 0 then [] else [ret]
  | .drained _ ret => if ret = 0 then [] else [ret]
  | _ => []

def onPage (pageSize page address : Nat) : Bool := page ≤ address && address < page + pageSize

structure System where
  segment : Segment
  memory : Memory
  /-- The allocations clients hold. -/
  live : List Allocation
  /-- Calls of `deallocate` behind the test of the head and before their effect. -/
  deallocating : List Allocation
  control : Control

inductive Action where
  /-- A client writes a byte. -/
  | store (address : Nat) (value : UInt8)
  /-- A call of `deallocate` tests the head of the list. -/
  | callDeallocate (x : Allocation)
  | push (x : Allocation)
  | deallocateInternal (x : Allocation)
  /-- A whole call of `allocate` on a segment without a queue. -/
  | allocate (size : Nat) (arena : ArenaAnswers)
  /-- The owner starts to drain its queue. -/
  | drain (goal : Goal)
  | pop
  | deallocatePopped
  /-- What follows the drain. -/
  | finish (arena : ArenaAnswers)
  | destroy
  | recycleFreeLogicalPages

namespace System
variable (T : SegmentType) (L : PageLaws T.page)

/-- What a client holds after a call that returned this pointer. -/
def grant (sizeClass size ret : Nat) (live : List Allocation) : List Allocation :=
  if ret = 0 then live else ⟨ret, L.granted sizeClass size⟩ :: live

def afterAllocate (sys : System) (size : Nat) : Nat × Segment × Memory → System
  | (ret, s, mem) => { sys with
    segment := s
    memory := mem
    live := grant T L s.sizeClass size ret sys.live
    control := .idle }

def perform (sys : System) : Action → Option System
  | .store address value =>
    some { sys with memory.bytes := Function.update sys.memory.bytes address value }
  | .callDeallocate x =>
    if sys.segment.head = 0 then some { sys with live := sys.live.erase x }
    else some { sys with live := sys.live.erase x, deallocating := x :: sys.deallocating }
  | .push x => some { sys with
      segment := Segment.pushDeallocationQueue x.ptr sys.segment
      deallocating := sys.deallocating.erase x }
  | .deallocateInternal x =>
    (Segment.deallocateInternal T x.ptr sys.segment sys.memory).map fun (s, mem) =>
      { sys with segment := s, memory := mem, deallocating := sys.deallocating.erase x }
  | .allocate size arena =>
    (Segment.allocateInternal T arena size sys.segment sys.memory).map (sys.afterAllocate T L size)
  | .drain goal => some { sys with control := .draining goal 0 }
  | .pop =>
    match sys.control with
    | .draining goal ret =>
      let (pointer, s) := Segment.popDeallocationQueue sys.segment
      if pointer = 0 then some { sys with segment := s, control := .drained goal ret }
      else if goal ≠ .destroy ∧ T.page.supportsAnySize = false ∧ ret = 0 then
        some { sys with segment := s, control := .draining goal pointer }
      else some { sys with segment := s, control := .freeing goal ret pointer }
    | _ => none
  | .deallocatePopped =>
    match sys.control with
    | .freeing goal ret pointer =>
      (Segment.deallocateInternal T pointer sys.segment sys.memory).map fun (s, mem) =>
        { sys with segment := s, memory := mem, control := .draining goal ret }
    | _ => none
  | .finish arena =>
    match sys.control with
    | .drained (.allocate size) ret =>
      if ret ≠ 0 then some (sys.afterAllocate T L size (ret, sys.segment, sys.memory))
      else (Segment.allocateInternal T arena size sys.segment sys.memory).map
        (sys.afterAllocate T L size)
    | .drained .destroy _ =>
      (Segment.releasePages sys.segment sys.memory).map fun (s, mem) =>
        { sys with segment := s, memory := mem, control := .destroyed }
    | _ => none
  | .destroy =>
    (Segment.releasePages sys.segment sys.memory).map fun (s, mem) =>
      { sys with segment := s, memory := mem, control := .destroyed }
  | .recycleFreeLogicalPages =>
    (Segment.recycleFreeLogicalPages sys.segment sys.memory).map fun (s, mem) =>
      { sys with segment := s, memory := mem }

/-- Every pointer that is not in the free store of its page: with a client, with a call that
gives it back, in the queue, or in a local variable of the owner. -/
def pointersOut (sys : System) : List Nat :=
  sys.live.map Allocation.ptr ++ sys.deallocating.map Allocation.ptr ++
    sys.segment.deallocationQueue ++ sys.control.pointers

def Lists (sys : System) (l : List Nat) : Prop :=
  Path sys.memory.getNext sys.segment.head l 0 ∧ 0 ∉ l

/-- An arena that is asked keeps its promise for the pages that are listed. -/
def ArenaAnswersFor (sys : System) (size : Nat) (arena : ArenaAnswers) : Prop :=
  T.concurrency ≠ .threadLocal → ∃ l, sys.Lists l ∧ ArenaPromise T sys.segment l arena size

/-- What the threads and the arena may do. -/
def Allowed (sys : System) : Action → Prop
  | .store address _ => ∃ x ∈ sys.live, x.Holds address
  | .callDeallocate x => x ∈ sys.live ∧ sys.control ≠ .destroyed
  | .push x => T.concurrency = .threadLocal ∧ x ∈ sys.deallocating ∧ sys.control ≠ .destroyed
  | .deallocateInternal x =>
    T.concurrency ≠ .threadLocal ∧ x ∈ sys.deallocating ∧ sys.control = .idle
  | .allocate size arena =>
    T.concurrency ≠ .threadLocal ∧ sys.control = .idle ∧ sys.ArenaAnswersFor T size arena
  | .drain _ => T.concurrency = .threadLocal ∧ sys.control = .idle
  | .pop => ∃ goal ret, sys.control = .draining goal ret
  | .deallocatePopped => ∃ goal ret pointer, sys.control = .freeing goal ret pointer
  | .finish arena => ∃ goal ret, sys.control = .drained goal ret ∧
      ∀ size, goal = .allocate size → sys.ArenaAnswersFor T size arena
  | .destroy => T.concurrency ≠ .threadLocal ∧ sys.control = .idle
  | .recycleFreeLogicalPages => sys.control ≠ .destroyed

end System

/-- The states of runs that begin with a successful creation over a fresh buffer, in which
every step is allowed and also meets a condition of the caller. -/
inductive Reachable (T : SegmentType) (L : PageLaws T.page) (condition : System → Action → Prop) :
    System → Prop
  | create {buffer : Nat} {queueMemory : Bool} {params : SegmentCreationParameters} {s : Segment}
      {mem mem' : Memory} (hword : params.logicalPageSize < 2^64)
      (hb : FreshBuffer T { logicalPageSize := params.logicalPageSize } [] buffer params.logicalPageCount)
      (hp : T.bufferAlignedToLogicalPageSize = true → ∃ k ≤ 64, params.logicalPageSize = 2^k)
      (hlog : mem.created = [] ∧ mem.released = [])
      (h : Segment.create T buffer queueMemory params {} mem = some (true, s, mem')) :
      Reachable T L condition ⟨s, mem', [], [], .idle⟩
  | step {sys sys' : System} {action : Action} (h : Reachable T L condition sys)
      (ha : sys.Allowed T action) (hc : condition sys action)
      (hp : sys.perform T L action = some sys') : Reachable T L condition sys'

end Metamalloc.Segments
