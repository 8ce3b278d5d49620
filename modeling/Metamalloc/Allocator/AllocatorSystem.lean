import Metamalloc.Allocator.ScalableAllocator
import Metamalloc.Heaps.HeapLookup

/-! The allocator among its threads. A request is the lookup of the thread's heap, the call on
that heap and, after a refusal, the call on the central one; other threads may come in between. -/
namespace Metamalloc.Allocator
open Library.Word64 Library.ByteMemory Library.LinkedList Pages Segments Heaps

def AllocatorType.heapType (A : AllocatorType) : Option Nat → HeapType
  | none => A.centralHeap
  | some _ => A.localHeap

namespace ScalableAllocator

def heapAt (a : ScalableAllocator) : Option Nat → SimpleHeapPow2
  | none => a.centralHeap
  | some i => a.localHeaps i

def setHeapAt (a : ScalableAllocator) : Option Nat → SimpleHeapPow2 → ScalableAllocator
  | none, heap => { a with centralHeap := heap }
  | some i, heap => a.setLocalHeap i heap

/-- The addresses that the intervals of local heaps take in, the interval of a heap that got no
buffer included. -/
def Claimed (a : ScalableAllocator) (c : Nat) : Prop :=
  c < heapBytes a.localHeapCreationParams ∨ ∃ i, (a.localHeaps i).ownsPointer c = true

end ScalableAllocator

/-- An allocation a client holds, with the heap and the segment that served it. -/
structure Held where
  ptr : Nat
  size : Nat
  owner : Option Nat
  segment : SegmentId
  deriving DecidableEq

def Held.place (x : Held) : Option Nat × SegmentId := (x.owner, x.segment)
def Held.allocation (x : Held) : Allocation := ⟨x.ptr, grantedSize x.segment x.size⟩

structure AllocatorSystem where
  allocator : ScalableAllocator
  memory : Memory
  live : List Held

inductive AllocatorAction where
  /-- A thread looks up its heap. -/
  | getThreadLocalHeap (thread : Nat) (answers : HeapAnswers)
  /-- A thread asks the heap it has stored. -/
  | allocateLocal (thread size : Nat) (arena : ArenaAnswers)
  | allocateCentral (size : Nat) (arena : ArenaAnswers)
  | deallocate (x : Held)
  | recycle (owner : Option Nat)
  /-- The end of a thread. -/
  | exit (thread : Nat)
  /-- A client writes a byte. -/
  | store (address : Nat) (value : UInt8)

namespace AllocatorSystem
variable (A : AllocatorType)

def allocateOn (owner : Option Nat) (size : Nat) (arena : ArenaAnswers) (sys : AllocatorSystem) :
    Option AllocatorSystem :=
  (SimpleHeapPow2.allocate (A.heapType owner) arena size (sys.allocator.heapAt owner) sys.memory).map
    fun r => ⟨sys.allocator.setHeapAt owner r.2.1, r.2.2,
      if r.1 = 0 then sys.live
      else ⟨r.1, size, owner, (SimpleHeapPow2.requestTarget size).1⟩ :: sys.live⟩

def perform (sys : AllocatorSystem) : AllocatorAction → Option AllocatorSystem
  | .getThreadLocalHeap thread answers =>
    (ScalableAllocator.getThreadLocalHeap A answers thread sys.allocator sys.memory).map fun r =>
      { sys with allocator := r.2.1, memory := r.2.2 }
  | .allocateLocal thread size arena =>
    (sys.allocator.threadLocalStorage thread).bind fun i => sys.allocateOn A (some i) size arena
  | .allocateCentral size arena => sys.allocateOn A none size arena
  | .deallocate x => (ScalableAllocator.deallocate A x.ptr sys.allocator sys.memory).map fun r =>
      ⟨r.1, r.2, sys.live.erase x⟩
  | .recycle owner => (SimpleHeapPow2.recycle (sys.allocator.heapAt owner) sys.memory).map fun r =>
      { sys with allocator := sys.allocator.setHeapAt owner r.1, memory := r.2 }
  | .exit thread => (ScalableAllocator.threadSpecificDestructor thread sys.allocator sys.memory).map fun r =>
      { sys with allocator := r.1, memory := r.2 }
  | .store address value =>
    some { sys with memory.bytes := Function.update sys.memory.bytes address value }

def performAll : List AllocatorAction → AllocatorSystem → Option AllocatorSystem
  | [], sys => some sys
  | action :: rest, sys => (sys.perform A action).bind (performAll rest)

def Lists (sys : AllocatorSystem) (owner : Option Nat) (id : SegmentId) (l : List Nat) : Prop :=
  Path sys.memory.getNext ((sys.allocator.heapAt owner).segment id).head l 0 ∧ 0 ∉ l

def Mapped (sys : AllocatorSystem) (c : Nat) : Prop :=
  ∃ owner id l, sys.Lists owner id l ∧ region ((sys.allocator.heapAt owner).segment id).logicalPageSize l c

def Fresh (sys : AllocatorSystem) (b length : Nat) : Prop :=
  FreshFor sys.allocator.arenaPageAlignment sys.Mapped b length

/-- What the threads and the arena may do. -/
def MayDo (sys : AllocatorSystem) : AllocatorAction → Prop
  | .getThreadLocalHeap _ answers => ∀ n, answers.request n ≠ 0 → sys.Fresh (answers.request n) n
  | .allocateLocal _ _ _ => True
  | .allocateCentral _ arena => (∀ n, arena.request n ≠ 0 → sys.Fresh (arena.request n) n) ∧
      ∀ n, arena.retry n ≠ 0 → sys.Fresh (arena.retry n) n
  | .deallocate x => x ∈ sys.live
  -- Nobody but its thread has a pointer to a local heap.
  | .recycle owner => ∀ i, owner = some i → ∃ thread, sys.allocator.threadLocalStorage thread = some i
  | .exit _ => True
  | .store address _ => ∃ x ∈ sys.live, x.ptr ≤ address ∧ address < x.ptr + x.size

/-- No byte of the buffer is in the interval of a local heap. -/
def Unclaimed (sys : AllocatorSystem) (b length : Nat) : Prop :=
  ∀ c, b ≤ c → c < b + length → ¬ sys.allocator.Claimed c

/-- Threads end when their heaps list no page; the arena gives out nothing that the interval of a
local heap takes in, and grants a growth in full or not at all; and recycling meets no page that
is marked as unused and in use. -/
def KeepsIntervals (sys : AllocatorSystem) : AllocatorAction → Prop
  | .getThreadLocalHeap _ answers => ∀ n, answers.request n ≠ 0 → sys.Unclaimed (answers.request n) n
  | .allocateCentral size arena =>
    GrantedInFull (A.centralHeap.segmentType (SimpleHeapPow2.requestTarget size).1)
      (sys.allocator.centralHeap.segment (SimpleHeapPow2.requestTarget size).1) arena
      (SimpleHeapPow2.requestTarget size).2 ∧
    ∀ n, arena.request n ≠ 0 → sys.Unclaimed (arena.request n) n
  | .recycle owner => ∀ id l, sys.Lists owner id l → ∀ a ∈ l,
      (sys.memory.pages a).canBeRecycled = true → (sys.memory.pages a).usedSize = 0
  | .exit thread => ∀ i, sys.allocator.threadLocalStorage thread = some i →
      ∀ id, ((sys.allocator.localHeaps i).segment id).head = 0
  | _ => True

end AllocatorSystem

section
variable {A : AllocatorType} {sys : AllocatorSystem} {answers : HeapAnswers} {thread size ret : Nat}
  {slot : Option Nat} {a a' : ScalableAllocator} {mem mem' : Memory} {arena : ArenaAnswers}

namespace AllocatorSystem

/-- What a client has after a request that one of the heaps has answered. -/
def afterRequest (sys : AllocatorSystem) (owner : Option Nat) (size ret : Nat) (a : ScalableAllocator)
    (mem : Memory) : AllocatorSystem :=
  ⟨a, mem, if ret = 0 then sys.live
    else ⟨ret, size, owner, (SimpleHeapPow2.requestTarget size).1⟩ :: sys.live⟩

theorem performs_local (sys : AllocatorSystem) {i : Nat} (hi : sys.allocator.threadLocalStorage thread = some i)
    (h : ScalableAllocator.onLocalHeap (SimpleHeapPow2.allocate A.localHeap arena size) i
      (sys.allocator, sys.memory) = some (ret, a, mem)) :
    sys.perform A (.allocateLocal thread size arena) = some (sys.afterRequest (some i) size ret a mem) := by
  obtain ⟨⟨ret', heap, mem'⟩, he, heq⟩ := Option.map_eq_some_iff.mp h
  simp only [Prod.mk.injEq] at heq
  obtain ⟨rfl, rfl, rfl⟩ := heq
  rw [perform, hi, Option.bind_some, allocateOn, AllocatorType.heapType, ScalableAllocator.heapAt, he]
  rfl

theorem performs_central (sys : AllocatorSystem)
    (h : ScalableAllocator.onCentralHeap (SimpleHeapPow2.allocate A.centralHeap arena size)
      (sys.allocator, sys.memory) = some (ret, a, mem)) :
    sys.perform A (.allocateCentral size arena) = some (sys.afterRequest none size ret a mem) := by
  obtain ⟨⟨ret', heap, mem'⟩, he, heq⟩ := Option.map_eq_some_iff.mp h
  simp only [Prod.mk.injEq] at heq
  obtain ⟨rfl, rfl, rfl⟩ := heq
  rw [perform, allocateOn, AllocatorType.heapType, ScalableAllocator.heapAt, he]
  rfl

theorem allocate_performs {answers : CallAnswers} {central : Bool}
    (h : ScalableAllocator.allocate A answers thread size sys.allocator sys.memory =
      some (ret, central, a, mem)) :
    ∃ calls owner, performAll A (.getThreadLocalHeap thread answers.heap :: calls) sys =
        some (sys.afterRequest owner size ret a mem) ∧
      (calls = [.allocateLocal thread size answers.arena] ∨ calls = [.allocateCentral size answers.arena] ∨
        calls = [.allocateLocal thread size answers.arena, .allocateCentral size answers.arena]) := by
  rw [ScalableAllocator.allocate, ScalableAllocator.allocateFrom] at h
  cases hget : ScalableAllocator.getThreadLocalHeap A answers.heap thread sys.allocator sys.memory with
  | none =>
    rw [hget] at h
    cases h
  | some r =>
    obtain ⟨slot, a₁, mem₁⟩ := r
    rw [hget] at h
    dsimp only at h
    have hstored := ScalableAllocator.getThreadLocalHeap_stored hget
    have hlookup : sys.perform A (.getThreadLocalHeap thread answers.heap) = some ⟨a₁, mem₁, sys.live⟩ := by
      rw [perform, hget]
      rfl
    cases slot with
    | none =>
      obtain ⟨⟨ret', a₂, mem₂⟩, hcentral, he⟩ := Option.map_eq_some_iff.mp h
      simp only [Prod.mk.injEq] at he
      obtain ⟨rfl, _, rfl, rfl⟩ := he
      have hstep := performs_central ⟨a₁, mem₁, sys.live⟩ hcentral
      refine ⟨_, none, ?_, .inr (.inl rfl)⟩
      rw [performAll, hlookup, Option.bind_some, performAll, hstep]
      rfl
    | some i =>
      rw [Option.map_some, failover] at h
      split at h
      · cases h
      · rename_i ret₁ s hlocal
        obtain ⟨a₂, mem₂⟩ := s
        have hstep := performs_local ⟨a₁, mem₁, sys.live⟩ hstored hlocal
        split at h
        · rename_i hret
          subst hret
          obtain ⟨⟨ret', a₃, mem₃⟩, hcentral, he⟩ := Option.map_eq_some_iff.mp h
          simp only [Prod.mk.injEq] at he
          obtain ⟨rfl, _, rfl, rfl⟩ := he
          have hstep' := performs_central ⟨a₂, mem₂, sys.live⟩ hcentral
          refine ⟨_, none, ?_, .inr (.inr rfl)⟩
          rw [performAll, hlookup, Option.bind_some, performAll, hstep, Option.bind_some, afterRequest,
            if_pos rfl, performAll, hstep']
          rfl
        · simp only [Option.some.injEq, Prod.mk.injEq] at h
          obtain ⟨rfl, _, rfl, rfl⟩ := h
          refine ⟨_, some i, ?_, .inl rfl⟩
          rw [performAll, hlookup, Option.bind_some, performAll, hstep]
          rfl

end AllocatorSystem
end

section
variable (params : ScalableAllocator.CreationParams) (answers : ScalableAllocator.CreationAnswers)

def centralBytes : Nat := SimpleHeapPow2.calculateRequiredBufferSize params.central
def localBytes : Nat := SimpleHeapPow2.calculateRequiredBufferSize params.localHeap

def centralBuffer : Nat := answers.centralHeap.request (centralBytes params)
def cachedBuffer (i : Nat) : Nat := (answers.cachedHeaps i).request (localBytes params)

/-- The addresses of the buffers of the central heap and of the first `n` cached heaps. -/
def Distributed (n c : Nat) : Prop :=
  (centralBuffer params answers ≤ c ∧ c < centralBuffer params answers + centralBytes params) ∨
    ∃ i < n, cachedBuffer params answers i ≤ c ∧ c < cachedBuffer params answers i + localBytes params

/-- The arena answers each of these heaps with a fresh buffer, or refuses. -/
structure FreshHeaps : Prop where
  central : centralBuffer params answers ≠ 0 → FreshFor params.arenaPageAlignment (fun _ => False)
    (centralBuffer params answers) (centralBytes params)
  cached : ∀ i, cachedBuffer params answers i ≠ 0 → FreshFor params.arenaPageAlignment
    (Distributed params answers i) (cachedBuffer params answers i) (localBytes params)

/-- No buffer begins below the length of a local heap. -/
structure HighHeaps : Prop where
  central : centralBuffer params answers ≠ 0 → localBytes params ≤ centralBuffer params answers
  cached : ∀ i, cachedBuffer params answers i ≠ 0 → localBytes params ≤ cachedBuffer params answers i

/-- Page sizes that the lookup by masking handles, byte counts without overflow, and buffers above
the interval of a heap that got none. -/
structure SoundCreation : Prop where
  centralPower : ∃ k, params.central.smallObjectLogicalPageSize = 2^k
  localPower : ∃ k, params.localHeap.smallObjectLogicalPageSize = 2^k
  centralBytes : heapBytes params.central < 2^64
  localBytes : heapBytes params.localHeap < 2^64
  high : HighHeaps params answers

end

/-- The states of runs from a successful `create`, in which every step is allowed and also meets a
condition of the caller. -/
inductive AllocatorRun (A : AllocatorType) (params : ScalableAllocator.CreationParams)
    (answers : ScalableAllocator.CreationAnswers)
    (condition : AllocatorSystem → AllocatorAction → Prop) : AllocatorSystem → Prop
  | create {count : Nat} {a : ScalableAllocator} {mem mem' : Memory} (hfresh : FreshHeaps params answers)
      (h : ScalableAllocator.create A params answers (ScalableAllocator.setThreadLocalHeapCacheCount count {})
        mem = some (true, a, mem')) :
      AllocatorRun A params answers condition ⟨a, mem', []⟩
  | step {sys sys' : AllocatorSystem} {action : AllocatorAction}
      (h : AllocatorRun A params answers condition sys) (ha : sys.MayDo action) (hc : condition sys action)
      (hp : sys.perform A action = some sys') : AllocatorRun A params answers condition sys'

end Metamalloc.Allocator
