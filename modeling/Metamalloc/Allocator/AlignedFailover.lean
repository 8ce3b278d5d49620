import Metamalloc.Allocator.ScalableAllocator

/-! When a failed aligned allocation is reported as null, by a heap and by the allocator that
falls over from the local to the central heap. -/
namespace Metamalloc.Allocator
open Library.Word64 Pages Segments Heaps

/-- The alignment comes for free, or the underlying heap serves the padded request and the
next multiple of the alignment is an address. -/
def ServesAligned (p alignment : Nat) : Prop :=
  alignment ≤ minimumAlignment ∨ p ≠ 0 ∧ p + alignment < 2^64

section
variable {p k : Nat}

theorem alignedAnswer_eq_zero_iff (hk : k < 64) (hp : p < 2^64) :
    (HeapBase.alignedAnswer p (2^k) = 0 ↔ p = 0) ↔ ServesAligned p (2^k) := by
  have hpow : 2^k < 2^64 := Nat.pow_lt_pow_right (by decide) hk
  simp only [HeapBase.alignedAnswer, ServesAligned]
  by_cases hle : 2^k ≤ minimumAlignment
  · simp [hle]
  · rw [if_neg hle, alignedPointer_eq_zero_iff hk hp]
    constructor
    · intro h
      refine .inr ⟨?_, ?_⟩ <;> omega
    · rintro (h | ⟨h0, h⟩)
      · exact absurd h hle
      · omega

end

/-- What the heaps answer to a request of the thread: the local one, when there is one, and
then the central one. -/
def HeapsAnswer (A : AllocatorType) (answers : CallAnswers) (thread size : Nat) (a : ScalableAllocator)
    (mem : Memory) (p : Option Nat) (q : Nat) : Prop :=
  ∃ heap a₁ mem₁, ScalableAllocator.getThreadLocalHeap A answers.heap thread a mem = some (heap, a₁, mem₁) ∧
    ∃ s₂ s₃, (match heap with
      | none => p = none ∧ s₂ = (a₁, mem₁)
      | some i => ∃ p', p = some p' ∧ p' < 2^64 ∧ ScalableAllocator.onLocalHeap
          (SimpleHeapPow2.allocate A.localHeap answers.arena size) i (a₁, mem₁) = some (p', s₂)) ∧
    ScalableAllocator.onCentralHeap (SimpleHeapPow2.allocate A.centralHeap answers.arena size) s₂ =
      some (q, s₃) ∧ q < 2^64

section
variable {A : AllocatorType} {answers : CallAnswers} {thread size q k : Nat} {a : ScalableAllocator}
  {mem : Memory} {p : Option Nat}

theorem onLocalHeap_aligned {alignment i p' : Nat} {s₁ s₂ : ScalableAllocator × Memory}
    (h : ScalableAllocator.onLocalHeap (SimpleHeapPow2.allocate A.localHeap answers.arena
      (HeapBase.underlyingSize size alignment)) i s₁ = some (p', s₂)) :
    ScalableAllocator.onLocalHeap (fun heap mem => HeapBase.allocateAligned
      (fun size (heap, mem) => SimpleHeapPow2.allocate A.localHeap answers.arena size heap mem)
      size alignment (heap, mem)) i s₁ = some (HeapBase.alignedAnswer p' alignment, s₂) := by
  obtain ⟨⟨ret, heap, mem⟩, he, heq⟩ := Option.map_eq_some_iff.mp h
  cases heq
  exact Option.map_eq_some_iff.mpr ⟨_, allocateAligned_eq he, rfl⟩

theorem onCentralHeap_aligned {alignment : Nat} {s₁ s₂ : ScalableAllocator × Memory}
    (h : ScalableAllocator.onCentralHeap (SimpleHeapPow2.allocate A.centralHeap answers.arena
      (HeapBase.underlyingSize size alignment)) s₁ = some (q, s₂)) :
    ScalableAllocator.onCentralHeap (fun heap mem => HeapBase.allocateAligned
      (fun size (heap, mem) => SimpleHeapPow2.allocate A.centralHeap answers.arena size heap mem)
      size alignment (heap, mem)) s₁ = some (HeapBase.alignedAnswer q alignment, s₂) := by
  obtain ⟨⟨ret, heap, mem⟩, he, heq⟩ := Option.map_eq_some_iff.mp h
  cases heq
  exact Option.map_eq_some_iff.mpr ⟨_, allocateAligned_eq he, rfl⟩

/-- The call as it is carried out: the first heap that is asked decides. -/
theorem allocateAligned_failover {alignment : Nat}
    (h : HeapsAnswer A answers thread (HeapBase.underlyingSize size alignment) a mem p q) :
    ∃ a' mem', ScalableAllocator.allocateAligned A answers thread size alignment a mem =
      some (if HeapBase.alignedAnswer (p.getD 0) alignment = 0 ∨ p = none then HeapBase.alignedAnswer q alignment
        else HeapBase.alignedAnswer (p.getD 0) alignment,
        decide (HeapBase.alignedAnswer (p.getD 0) alignment = 0 ∨ p = none), a', mem') := by
  obtain ⟨heap, a₁, mem₁, hget, s₂, ⟨a₃, mem₃⟩, hlocal, hcentral, _⟩ := h
  simp only [ScalableAllocator.allocateAligned, ScalableAllocator.allocateFrom, hget]
  cases heap with
  | none =>
    obtain ⟨rfl, rfl⟩ := hlocal
    refine ⟨a₃, mem₃, ?_⟩
    simp [failover, onCentralHeap_aligned hcentral]
  | some i =>
    obtain ⟨p', rfl, _, hp⟩ := hlocal
    by_cases h0 : HeapBase.alignedAnswer p' alignment = 0
    · refine ⟨a₃, mem₃, ?_⟩
      simp [failover, onLocalHeap_aligned hp, onCentralHeap_aligned hcentral, h0]
    · refine ⟨s₂.1, s₂.2, ?_⟩
      simp [failover, onLocalHeap_aligned hp, h0]

/-- Null is reported faithfully exactly when the heap that is asked first serves the request,
or when the alignment needs no padding. -/
theorem allocateAligned_reports_failure_iff (hk : k < 64) :
    (∀ {σ : Type} (allocate : Nat → σ → Option (Nat × σ)) (size p : Nat) (s s' : σ),
      allocate (HeapBase.underlyingSize size (2^k)) s = some (p, s') → p < 2^64 →
      ∃ ret, HeapBase.allocateAligned allocate size (2^k) s = some (ret, s') ∧
        ((ret = 0 ↔ p = 0) ↔ ServesAligned p (2^k))) ∧
    ∀ (A : AllocatorType) (answers : CallAnswers) (thread size : Nat) (a : ScalableAllocator)
      (mem : Memory) (p : Option Nat) (q : Nat),
      HeapsAnswer A answers thread (HeapBase.underlyingSize size (2^k)) a mem p q →
      ∃ ret central a' mem', ScalableAllocator.allocateAligned A answers thread size (2^k) a mem =
          some (ret, central, a', mem') ∧
        (((central = true ↔ p.getD 0 = 0) ∧ (ret = 0 ↔ p.getD 0 = 0 ∧ q = 0)) ↔
          ServesAligned (p.getD q) (2^k)) := by
  refine ⟨fun allocate size p s s' h hp => ?_, fun A answers thread size a mem p q h => ?_⟩
  · exact ⟨_, allocateAligned_eq h, alignedAnswer_eq_zero_iff hk hp⟩
  · obtain ⟨a', mem', he⟩ := allocateAligned_failover h
    refine ⟨_, _, a', mem', he, ?_⟩
    obtain ⟨heap, a₁, mem₁, _, s₂, s₃, hlocal, _, hq⟩ := h
    cases p with
    | none =>
      simp [alignedAnswer_eq_zero_iff hk hq]
    | some p' =>
      have hp' : p' < 2^64 := by
        cases heap with
        | none => cases hlocal.1
        | some i =>
          obtain ⟨p'', heq, hlt, _⟩ := hlocal
          cases heq
          exact hlt
      have hiff := alignedAnswer_eq_zero_iff hk hp'
      simp only [Option.getD_some, reduceCtorEq, or_false, decide_eq_true_eq]
      constructor
      · rintro ⟨hhit, _⟩
        exact hiff.mp hhit
      · intro hserves
        have hzero := hiff.mpr hserves
        refine ⟨hzero, ?_⟩
        by_cases h0 : p' = 0
        · -- A local heap that refused can only be behind an alignment that needs no padding.
          have hle : 2^k ≤ minimumAlignment := hserves.resolve_right fun h => h.1 h0
          rw [if_pos (hzero.mpr h0), HeapBase.alignedAnswer, if_pos hle]
          simp [h0]
        · have hne : HeapBase.alignedAnswer p' (2^k) ≠ 0 := fun h => h0 (hzero.mp h)
          rw [if_neg hne]
          simp [h0, hne]

end

/-- A heap with one page for each bin and the two heaps of a thread serve a request with an
alignment of 32, and neither is thought to have failed. -/
theorem allocateAligned_reports_failure_of_served :
    (∃ sys p ret, afterRequests [] = some sys ∧ p ≠ 0 ∧
      (HeapBase.allocateAligned (fun size (heap, mem) =>
        SimpleHeapPow2.allocate singleThreadHeap refusingArena size heap mem) 1000 32
        (sys.heap, sys.memory)).map (fun r => r.1) = some ret ∧ (ret = 0 ↔ p = 0)) ∧
    ∃ ok a mem p ret central a' mem', createOneThread = some (ok, a, mem) ∧ p ≠ 0 ∧
      ScalableAllocator.allocateAligned oneThreadAllocator oneThreadAnswers 1 1000 32 a mem =
        some (ret, central, a', mem') ∧ (central = true ↔ p = 0) ∧ ret ≠ 0 := by
  have h := allocateAligned_reports_failure_iff (k := 5) (by decide)
  constructor
  · have he : (afterRequests []).bind (fun sys => (SimpleHeapPow2.allocate singleThreadHeap refusingArena
        (HeapBase.underlyingSize 1000 (2^5)) sys.heap sys.memory).map fun r => r.1) = some 1077312 := by
      decide +kernel
    obtain ⟨sys, hsys, hcall⟩ := Option.bind_eq_some_iff.mp he
    obtain ⟨⟨p, s'⟩, hcall, hp⟩ := Option.map_eq_some_iff.mp hcall
    subst hp
    obtain ⟨ret, hret, hiff⟩ := h.1 (fun size (heap, mem) =>
        SimpleHeapPow2.allocate singleThreadHeap refusingArena size heap mem) 1000 1077312
      (sys.heap, sys.memory) s' hcall (by decide)
    refine ⟨sys, 1077312, ret, hsys, by decide, ?_, hiff.mpr (.inr ⟨by decide, by decide⟩)⟩
    exact Option.map_eq_some_iff.mpr ⟨_, hret, rfl⟩
  · have he : createOneThread.bind (fun r =>
        (ScalableAllocator.getThreadLocalHeap oneThreadAllocator oneThreadAnswers.heap 1 r.2.1 r.2.2).bind fun g =>
        (ScalableAllocator.onLocalHeap (SimpleHeapPow2.allocate oneThreadAllocator.localHeap
          oneThreadAnswers.arena (HeapBase.underlyingSize 1000 (2^5))) 0 g.2).bind fun l =>
        (ScalableAllocator.onCentralHeap (SimpleHeapPow2.allocate oneThreadAllocator.centralHeap
          oneThreadAnswers.arena (HeapBase.underlyingSize 1000 (2^5))) l.2).map fun c => (g.1, l.1, c.1)) =
        some (some 0, 2125888, 1077312) := by
      decide +kernel
    obtain ⟨⟨ok, a, mem⟩, hcreate, he⟩ := Option.bind_eq_some_iff.mp he
    obtain ⟨⟨heap, a₁, mem₁⟩, hget, he⟩ := Option.bind_eq_some_iff.mp he
    obtain ⟨⟨p, s₂⟩, hlocal, he⟩ := Option.bind_eq_some_iff.mp he
    obtain ⟨⟨q, s₃⟩, hcentral, heq⟩ := Option.map_eq_some_iff.mp he
    simp only [Prod.mk.injEq] at heq
    obtain ⟨rfl, rfl, rfl⟩ := heq
    have hanswer : HeapsAnswer oneThreadAllocator oneThreadAnswers 1 (HeapBase.underlyingSize 1000 (2^5)) a mem
        (some 2125888) 1077312 :=
      ⟨some 0, a₁, mem₁, hget, s₂, s₃, ⟨_, rfl, by decide, hlocal⟩, hcentral, by decide⟩
    obtain ⟨ret, central, a', mem', hcall, hiff⟩ := h.2 _ _ _ _ _ _ _ _ hanswer
    obtain ⟨hhit, hnull⟩ := hiff.mpr (.inr ⟨by decide, by decide⟩)
    exact ⟨ok, a, mem, 2125888, ret, central, a', mem', hcreate, by decide, hcall, hhit,
      fun h0 => absurd (hnull.mp h0).1 (by decide)⟩

/-- Once the only chunk of 2048 bytes is taken, a request for 1000 bytes with an alignment of
32 fails. The heap returns the alignment for it, and the allocator does not go on to its
central heap, which could serve the request. -/
theorem allocateAligned_hides_failure :
    (∃ sys, afterRequests [2048] = some sys ∧
      (SimpleHeapPow2.allocate singleThreadHeap refusingArena (HeapBase.underlyingSize 1000 32) sys.heap
        sys.memory).map (fun r => r.1) = some 0 ∧
      (HeapBase.allocateAligned (fun size (heap, mem) =>
        SimpleHeapPow2.allocate singleThreadHeap refusingArena size heap mem) 1000 32
        (sys.heap, sys.memory)).map (fun r => r.1) = some 32) ∧
    ∃ ok a mem p central a₁ mem₁, createOneThread = some (ok, a, mem) ∧
      ScalableAllocator.allocate oneThreadAllocator oneThreadAnswers 1 2048 a mem =
        some (p, central, a₁, mem₁) ∧
      (SimpleHeapPow2.allocate oneThreadAllocator.localHeap refusingArena
        (HeapBase.underlyingSize 1000 32) (a₁.localHeaps 0) mem₁).map (fun r => r.1) = some 0 ∧
      (SimpleHeapPow2.allocate oneThreadAllocator.centralHeap refusingArena
        (HeapBase.underlyingSize 1000 32) a₁.centralHeap mem₁).map (fun r => r.1) = some 1077312 ∧
      (ScalableAllocator.allocateAligned oneThreadAllocator oneThreadAnswers 1 1000 32 a₁ mem₁).map
        (fun r => (r.1, r.2.1)) = some (32, false) := by
  constructor
  · have he : (afterRequests [2048]).map (fun sys =>
        ((SimpleHeapPow2.allocate singleThreadHeap refusingArena (HeapBase.underlyingSize 1000 32) sys.heap
          sys.memory).map (fun r => r.1),
        (HeapBase.allocateAligned (fun size (heap, mem) =>
          SimpleHeapPow2.allocate singleThreadHeap refusingArena size heap mem) 1000 32
          (sys.heap, sys.memory)).map (fun r => r.1))) = some (some 0, some 32) := by decide +kernel
    obtain ⟨sys, hsys, heq⟩ := Option.map_eq_some_iff.mp he
    exact ⟨sys, hsys, congrArg Prod.fst heq, congrArg Prod.snd heq⟩
  · have he : createOneThread.bind (fun r =>
        (ScalableAllocator.allocate oneThreadAllocator oneThreadAnswers 1 2048 r.2.1 r.2.2).map fun c =>
        ((SimpleHeapPow2.allocate oneThreadAllocator.localHeap refusingArena
          (HeapBase.underlyingSize 1000 32) (c.2.2.1.localHeaps 0) c.2.2.2).map (fun r => r.1),
        (SimpleHeapPow2.allocate oneThreadAllocator.centralHeap refusingArena
          (HeapBase.underlyingSize 1000 32) c.2.2.1.centralHeap c.2.2.2).map (fun r => r.1),
        (ScalableAllocator.allocateAligned oneThreadAllocator oneThreadAnswers 1 1000 32 c.2.2.1 c.2.2.2).map
          (fun r => (r.1, r.2.1)))) = some (some 0, some 1077312, some (32, false)) := by decide +kernel
    obtain ⟨⟨ok, a, mem⟩, hcreate, he⟩ := Option.bind_eq_some_iff.mp he
    obtain ⟨⟨p, central, a₁, mem₁⟩, hcall, heq⟩ := Option.map_eq_some_iff.mp he
    simp only [Prod.mk.injEq] at heq
    exact ⟨ok, a, mem, p, central, a₁, mem₁, hcreate, hcall, heq.1, heq.2.1, heq.2.2⟩

end Metamalloc.Allocator
