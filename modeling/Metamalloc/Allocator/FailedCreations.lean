import Mathlib.Data.Set.Card
import Metamalloc.Allocator.HeapSlots

/-! Heaps that cannot be created. A thread without a heap asks for one with every allocation, and a
place of the metadata buffer is counted each time, whether the heap could be created or not. -/
namespace Metamalloc.Allocator
open Library.Word64 Pages Segments Heaps

namespace ScalableAllocator

def heapOwners (a : ScalableAllocator) : Set Nat := {thread | a.threadLocalStorage thread ≠ none}

/-- The places `deallocate` looks at: up to the first heap that has the pointer. -/
def consulted (ptr : Nat) (a : ScalableAllocator) : List Nat :=
  let places := List.range a.activeLocalHeapCount
  if ptr = 0 then []
  else places.take (places.findIdx (fun i => (a.localHeaps i).ownsPointer ptr) + 1)

/-- The place that a call of the thread has counted without a heap in it. -/
def failedFor (thread : Nat) (heap : Option Nat) (a : ScalableAllocator) : List Nat :=
  if Admitted thread a ∧ heap = none then [a.activeLocalHeapCount] else []

/-- The places are those of the threads that have a heap. -/
structure CreationsCostNothing (a : ScalableAllocator) : Prop where
  active_eq : a.activeLocalHeapCount = a.heapOwners.ncard
  /-- Places are left as long as the heaps of the threads leave some. -/
  admitted_iff : ∀ thread, Admitted thread a ↔
    a.threadLocalStorage thread = none ∧ a.heapOwners.ncard + 1 < a.maxThreadLocalHeapCount
  consulted_owned : ∀ ptr i, i ∈ a.consulted ptr → ∃ thread, a.threadLocalStorage thread = some i

end ScalableAllocator

open ScalableAllocator

/-- The states after a successful `create`, under allocations and deallocations of any threads in any order, with
the places at which a heap could not be created. -/
inductive CreationRun (A : AllocatorType) (params : CreationParams) :
    ScalableAllocator → Memory → List Nat → Prop
  | create {count : Nat} {answers : CreationAnswers} {mem mem' : Memory} {a : ScalableAllocator}
      (h : create A params answers (setThreadLocalHeapCacheCount count {}) mem = some (true, a, mem')) :
      CreationRun A params a mem' []
  | allocate {a a₁ a' : ScalableAllocator} {mem mem₁ mem' : Memory} {failed : List Nat}
      (hs : CreationRun A params a mem failed)
      {call : HeapType → SimpleHeapPow2 → Memory → Option (Nat × SimpleHeapPow2 × Memory)}
      {answers : HeapAnswers} {thread ret : Nat} {heap : Option Nat} {central : Bool}
      (hget : getThreadLocalHeap A answers thread a mem = some (heap, a₁, mem₁))
      (h : allocateFrom A call answers thread a mem = some (ret, central, a', mem')) :
      CreationRun A params a' mem' (failed ++ failedFor thread heap a)
  | deallocate {a a' : ScalableAllocator} {mem mem' : Memory} {failed : List Nat}
      (hs : CreationRun A params a mem failed) {ptr : Nat} (h : deallocate A ptr a mem = some (a', mem')) :
      CreationRun A params a' mem' failed

/-- Every place that is counted has the heap of one thread, or none that could be created. -/
structure CreationInv (a : ScalableAllocator) (failed : List Nat) : Prop where
  finite : a.heapOwners.Finite
  active_eq : a.activeLocalHeapCount = a.heapOwners.ncard + failed.length
  places : ∀ i < a.activeLocalHeapCount, i ∈ failed ∨ ∃ thread, a.threadLocalStorage thread = some i

section
variable {A : AllocatorType} {params : CreationParams} {a a' : ScalableAllocator} {mem mem' : Memory}
  {failed : List Nat} {answers : HeapAnswers} {thread : Nat} {heap : Option Nat}

/-- What a call for the heap of a thread does to the places. -/
theorem slots_getThreadLocalHeap (h : getThreadLocalHeap A answers thread a mem = some (heap, a', mem')) :
    (¬ Admitted thread a ∧ SameSlots a a') ∨
    (Admitted thread a ∧ (heap = none ∨ heap = some a.activeLocalHeapCount) ∧
      a'.activeLocalHeapCount = a.activeLocalHeapCount + 1 ∧
      a'.threadLocalStorage = Function.update a.threadLocalStorage thread heap) := by
  rcases getThreadLocalHeap_cases h with ⟨hheap, rfl, -, hfull⟩ | ⟨hstorage, hroom, a₁, rfl, hcreated⟩
  · exact .inl ⟨fun had => Nat.not_le_of_lt had.2 (hfull (hheap.trans had.1)), .refl _⟩
  · refine .inr ⟨⟨hstorage, hroom⟩, ?_⟩
    rcases hcreated with ⟨-, hcreated⟩ | ⟨-, rfl, rfl, -⟩
    · have hsame := sameSlots_createLocalHeap hcreated
      refine ⟨?_, congrArg (· + 1) hsame.active, by rw [hsame.storage]⟩
      cases heap with
      | none => exact .inl rfl
      | some i => exact .inr (congrArg some (createLocalHeap_eq_some hcreated))
    · exact ⟨.inr rfl, rfl, rfl⟩

theorem CreationInv.of_sameSlots (h : CreationInv a failed) (hsame : SameSlots a a') : CreationInv a' failed := by
  have howners : a'.heapOwners = a.heapOwners := by rw [heapOwners, heapOwners, hsame.storage]
  refine ⟨howners ▸ h.finite, ?_, ?_⟩
  · rw [howners, hsame.active]
    exact h.active_eq
  · rw [hsame.storage, hsame.active]
    exact h.places

theorem CreationInv.getThreadLocalHeap (h : CreationInv a failed)
    (hget : getThreadLocalHeap A answers thread a mem = some (heap, a', mem')) :
    CreationInv a' (failed ++ failedFor thread heap a) := by
  obtain ⟨had, hsame⟩ | ⟨had, hheap, hactive, hstorage⟩ := slots_getThreadLocalHeap hget
  · rw [failedFor, if_neg fun hc => had hc.1, List.append_nil]
    exact h.of_sameSlots hsame
  obtain rfl | rfl := hheap
  · -- nothing is stored for the thread, which had no heap before
    have hkept : a'.threadLocalStorage = a.threadLocalStorage := by
      rw [hstorage, ← had.1, Function.update_eq_self]
    have howners : a'.heapOwners = a.heapOwners := by rw [heapOwners, heapOwners, hkept]
    rw [failedFor, if_pos ⟨had, rfl⟩]
    refine ⟨howners ▸ h.finite, ?_, fun i hi => ?_⟩
    · rw [hactive, howners, h.active_eq, List.length_append, List.length_singleton]
      omega
    · rw [hkept]
      rw [hactive] at hi
      obtain hlt | rfl := Nat.lt_succ_iff_lt_or_eq.mp hi
      · exact (h.places i hlt).imp_left (List.mem_append_left _)
      · exact .inl (List.mem_append_right _ (List.mem_singleton.mpr rfl))
  · have howners : a'.heapOwners = insert thread a.heapOwners := by
      ext t
      simp only [heapOwners, hstorage, Set.mem_insert_iff, Set.mem_ofPred_eq]
      by_cases ht : t = thread
      · simp [ht]
      · simp [ht]
    have hnew : thread ∉ a.heapOwners := fun hmem => hmem had.1
    rw [failedFor, if_neg fun hc => Option.some_ne_none _ hc.2, List.append_nil]
    refine ⟨howners ▸ h.finite.insert thread, ?_, fun i hi => ?_⟩
    · rw [hactive, howners, Set.ncard_insert_of_notMem hnew h.finite, h.active_eq]
      omega
    · rw [hstorage]
      rw [hactive] at hi
      obtain hlt | rfl := Nat.lt_succ_iff_lt_or_eq.mp hi
      · refine (h.places i hlt).imp_right fun ⟨t, ht⟩ => ⟨t, ?_⟩
        rw [Function.update_of_ne, ht]
        rintro rfl
        rw [had.1] at ht
        cases ht
      · exact .inr ⟨thread, Function.update_self ..⟩

theorem CreationRun.inv (h : CreationRun A params a mem failed) : CreationInv a failed := by
  induction h with
  | create hcreate =>
    obtain ⟨-, -, -, hactive, hstorage⟩ := create_eq_true hcreate
    have howners : heapOwners _ = ∅ := Set.eq_empty_of_forall_notMem fun t ht => ht (congrFun hstorage t)
    refine ⟨howners ▸ Set.finite_empty, ?_, fun i hi => ?_⟩
    · rw [hactive, howners, Set.ncard_empty]
      rfl
    · rw [hactive] at hi
      exact absurd hi (Nat.not_lt_zero i)
  | allocate _ hget hcall ih => exact (ih.getThreadLocalHeap hget).of_sameSlots (sameSlots_allocateFrom hget hcall)
  | deallocate _ hcall ih => exact ih.of_sameSlots (sameSlots_deallocate hcall)

theorem lt_of_mem_consulted {ptr i : Nat} (h : i ∈ a.consulted ptr) : i < a.activeLocalHeapCount := by
  unfold consulted at h
  dsimp only at h
  split at h
  · cases h
  · exact List.mem_range.mp (List.mem_of_mem_take h)

/-- The places that are counted are those of the threads with a heap exactly when every heap of the run could
be created. -/
theorem creationsCostNothing_iff (h : CreationRun A params a mem failed) : a.CreationsCostNothing ↔ failed = [] := by
  have hinv := h.inv
  constructor
  · intro hnothing
    have hcount := hnothing.active_eq
    rw [hinv.active_eq] at hcount
    exact List.length_eq_zero_iff.mp (by omega)
  · rintro rfl
    have hcount : a.activeLocalHeapCount = a.heapOwners.ncard := hinv.active_eq
    refine ⟨hcount, fun thread => ?_, fun ptr i hi => ?_⟩
    · rw [Admitted, hcount]
    · exact (hinv.places i (lt_of_mem_consulted hi)).resolve_left List.not_mem_nil

end

/-- The one place goes to the thread whose heap is created. -/
theorem creationsCostNothing_of_one : ∃ a mem params, CreationRun oneThreadAllocator params a mem [] ∧
    a.activeLocalHeapCount = 1 ∧ a.heapOwners.ncard = 1 := by
  have hrun : createOneThread.bind (fun r =>
      (getThreadLocalHeap oneThreadAllocator oneThreadAnswers.heap 7 r.2.1 r.2.2).bind fun g =>
      (allocate oneThreadAllocator oneThreadAnswers 7 16 r.2.1 r.2.2).map fun s =>
      (r.1, g.1, failedFor 7 g.1 r.2.1, s.2.2.1.activeLocalHeapCount)) = some (true, some 0, [], 1) := by
    decide +kernel
  obtain ⟨⟨ok, a, mem⟩, hcreate, hrun⟩ := Option.bind_eq_some_iff.mp hrun
  obtain ⟨⟨heap, a₁, mem₁⟩, hget, hrun⟩ := Option.bind_eq_some_iff.mp hrun
  obtain ⟨⟨ret, central, a', mem'⟩, hcall, heq⟩ := Option.map_eq_some_iff.mp hrun
  simp only [Prod.mk.injEq] at heq
  obtain ⟨rfl, rfl, hfailed, hactive⟩ := heq
  have h := (CreationRun.create hcreate).allocate hget hcall
  rw [hfailed] at h
  have hnothing := (creationsCostNothing_iff h).mpr rfl
  exact ⟨a', mem', _, h, hactive, hnothing.active_eq ▸ hactive⟩

/-- The heap of thread 7 cannot be created: its place is counted all the same, thread 8 finds none left, and
a deallocation looks at the heap that is not there. -/
theorem failed_creation_takes_place : ∃ a mem params, CreationRun oneThreadAllocator params a mem [0] ∧
    a.activeLocalHeapCount = 1 ∧ a.heapOwners.ncard = 0 ∧
    (getThreadLocalHeap oneThreadAllocator oneThreadAnswers.heap 8 a mem).map (·.1) = some none ∧
    a.consulted 4096 = [0] ∧ ¬ a.CreationsCostNothing := by
  have hrun : createOneThread.bind (fun r =>
      (getThreadLocalHeap oneThreadAllocator exhaustedAnswers.heap 7 r.2.1 r.2.2).bind fun g =>
      (allocate oneThreadAllocator exhaustedAnswers 7 16 r.2.1 r.2.2).map fun s =>
      ((r.1, g.1, failedFor 7 g.1 r.2.1, s.2.2.1.activeLocalHeapCount),
        (getThreadLocalHeap oneThreadAllocator oneThreadAnswers.heap 8 s.2.2.1 s.2.2.2).map (·.1),
        s.2.2.1.consulted 4096)) = some ((true, none, [0], 1), some none, [0]) := by
    decide +kernel
  obtain ⟨⟨ok, a, mem⟩, hcreate, hrun⟩ := Option.bind_eq_some_iff.mp hrun
  obtain ⟨⟨heap, a₁, mem₁⟩, hget, hrun⟩ := Option.bind_eq_some_iff.mp hrun
  obtain ⟨⟨ret, central, a', mem'⟩, hcall, heq⟩ := Option.map_eq_some_iff.mp hrun
  simp only [Prod.mk.injEq] at heq
  obtain ⟨⟨rfl, rfl, hfailed, hactive⟩, hother, hconsulted⟩ := heq
  have h := (CreationRun.create hcreate).allocate hget hcall
  rw [hfailed] at h
  have howners : a'.heapOwners.ncard = 0 := by
    have hcount := h.inv.active_eq
    rw [hactive] at hcount
    simpa using hcount
  refine ⟨a', mem', _, h, hactive, howners, hother, hconsulted, fun hnothing => ?_⟩
  have hcount := hnothing.active_eq
  rw [hactive, howners] at hcount
  cases hcount

end Metamalloc.Allocator
