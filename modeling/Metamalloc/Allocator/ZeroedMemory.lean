import Metamalloc.Allocator.AllocationCalls

/-! Arrays of zeros. The size of the array is taken modulo the machine word before anything looks at it. -/
namespace Metamalloc.Allocator
open Library.Word64 Library.ByteMemory Library.LinkedList Library.Tiling Pages Segments Heaps ScalableAllocator

/-- The block reaches over the array, and the array is zero. -/
def AllocatorSystem.ZeroedArray (sys : AllocatorSystem) (y : Held) (n : Nat) : Prop :=
  sys.BlockHolds y n ∧ ∀ b, y.ptr ≤ b → b < y.ptr + n → sys.memory.bytes b = 0

/-- The array behind a pointer that is not null; the block is that of the allocation given, when it was kept in
its place. -/
def AllocatorSystem.ArrayBehind (sys : AllocatorSystem) (given : Option Held) (n ret : Nat) : Prop :=
  ∃ y : Held, y.ptr = ret ∧ (∀ x, given = some x → x.ptr = ret → y = x) ∧ sys.ZeroedArray y n

/-- A call for an array beyond the machine word returns null, and a pointer that is returned has the array
behind it. -/
def AllocatorSystem.ZeroesWhole (sys : AllocatorSystem) (given : Option Held) (num size : Nat)
    (result : Option (Nat × ScalableAllocator × Memory)) : Prop :=
  (2^64 ≤ num * size → result.map (·.1) = some 0) ∧
  ∀ ret a mem, result = some (ret, a, mem) → ret ≠ 0 →
    AllocatorSystem.ArrayBehind ⟨a, mem, sys.live⟩ given (num * size) ret

def AllocatorSystem.Refuses (A : AllocatorType) (answers : CallAnswers) (thread size : Nat) (sys : AllocatorSystem) :
    Prop :=
  (allocate A answers thread size sys.allocator sys.memory).map (·.1) = some 0

/-- Bytes that are reported as usable, with the padding of the block taken off. -/
def AllocatorSystem.KeepsInside (sys : AllocatorSystem) (x : Held) (usable size : Nat) : Prop :=
  size ≤ usable → size + paddingOf x.segment x.ptr sys.memory.bytes ≤ usable

section
variable {A : AllocatorType} {params : CreationParams} {creation : CreationAnswers} {sys : AllocatorSystem}
  {built : Nat → Prop} {g : Option Nat × SegmentId → Ghost} {answers : CallAnswers}
  {thread num size ret n m usable : Nat} {a : ScalableAllocator} {mem : Memory} {x y : Held} {live : List Held}

/-- Zeros from the pointer on leave the header in front of it alone. -/
theorem blockHolds_memset (h : 16 ≤ x.ptr) :
    AllocatorSystem.BlockHolds ⟨a, memset x.ptr m mem, live⟩ x n ↔ AllocatorSystem.BlockHolds ⟨a, mem, live⟩ x n := by
  have hagree : ∀ lo, AgreeOn mem.bytes (memset x.ptr m mem).bytes lo x.ptr :=
    fun lo b _ hb => if_neg fun hin => absurd hin.1 (Nat.not_le_of_lt hb)
  have hblock : ∀ page, blockBehind x.segment x.ptr ((memset x.ptr m mem).page page) =
      blockBehind x.segment x.ptr (mem.page page) := by
    intro page
    cases x.segment with
    | small i => rfl
    | big =>
      have hpadding := ((hagree (x.ptr - 16)).mono le_rfl (by omega : x.ptr - 16 + 8 ≤ x.ptr)).read64_eq
      have hsize := ((hagree (x.ptr - 16 + 8)).mono le_rfl (by omega : x.ptr - 16 + 8 + 8 ≤ x.ptr)).read64_eq
      simp only [blockBehind, LogicalPageAnySize.liveBlock, LogicalPageAnySize.getPaddingSize,
        LogicalPageAnySize.getBlockSize, Memory.page, hpadding, hsize]
  unfold AllocatorSystem.BlockHolds
  dsimp only
  simp only [hblock]
  rfl

theorem HeapsInv.zeroed (h : HeapsInv A sys built g) (hy : y ∈ sys.live) (hn : n ≤ y.allocation.size) :
    AllocatorSystem.ZeroedArray ⟨sys.allocator, memset y.ptr n sys.memory, live⟩ y n := by
  have hinv : HeapsInv A { sys with memory.bytes := fill sys.memory.bytes y.ptr n 0 } built g := by
    refine h.write_ok hy fun b hb => if_neg fun hin => hb ?_
    have hptr : y.allocation.ptr = y.ptr := rfl
    simp only [Allocation.Holds, hptr]
    omega
  obtain ⟨l, page, hlists, hpage, hon, hend⟩ := hinv.blockHolds_granted hy
  exact ⟨⟨l, page, hlists, hpage, hon, (Nat.add_le_add_left hn _).trans hend⟩, fun b hlo hhi => if_pos ⟨hlo, hhi⟩⟩

theorem HeapsInv.header_le (h : HeapsInv A sys built g) (hx : x ∈ sys.live) : 16 ≤ x.ptr := by
  obtain ⟨c, -, howned, -, -⟩ := h.page hx
  have hin := ((h.family.system x.place (h.held x hx).1).segment.owned_inside howned).2.1
  rw [(A.laws x.place).objectSize_eq] at hin
  have hptr : x.allocation.ptr = x.ptr := rfl
  simp only [logicalPageHeaderSize] at hin
  omega

theorem HeapsInv.zeroed_afterRequest {owner : Option Nat}
    (h : HeapsInv A (sys.afterRequest owner n ret a mem) built g) (live : List Held) (hret : ret ≠ 0) :
    ∃ y : Held, y.ptr = ret ∧ AllocatorSystem.ZeroedArray ⟨a, memset ret n mem, live⟩ y n := by
  have hnew := @HeapsInv.mem_afterRequest sys mem owner n ret a hret
  exact ⟨_, rfl, h.zeroed hnew (h.fits _ hnew)⟩

theorem zeroesWhole_some {given : Option Held} : sys.ZeroesWhole given num size (some (ret, a, mem)) ↔
    (2^64 ≤ num * size → ret = 0) ∧
      (ret ≠ 0 → AllocatorSystem.ArrayBehind ⟨a, mem, sys.live⟩ given (num * size) ret) := by
  rw [AllocatorSystem.ZeroesWhole, Option.map_some, Option.some.injEq]
  refine and_congr_right fun _ => ⟨fun h => h ret a mem rfl, fun h ret' a' mem' heq => ?_⟩
  cases heq
  exact h

/-- A new array is whole exactly when the machine word holds its size, or nothing was found for what is
left of the size. -/
theorem zeroesWhole_allocated (hpolicy : A.localHeap.concurrency = .threadLocal)
    (hsound : SoundCreation params creation)
    (h : AllocatorRun A params creation (AllocatorSystem.KeepsIntervals A) sys)
    (hcall : sys.SoundCall A answers thread (mul64 num size)) :
    sys.ZeroesWhole none num size (allocateAndZeroMemory A answers thread num size sys.allocator sys.memory) ↔
      num * size < 2^64 ∨ sys.Refuses A answers thread (mul64 num size) := by
  obtain ⟨ret, central, a, mem, owner, hserved, hrun, -⟩ := h.allocate_ok hpolicy hsound hcall
  rw [allocateAndZeroMemory, AllocatorSystem.Refuses, hserved, Option.map_some, Option.some.injEq, zeroesWhole_some]
  constructor
  · rintro ⟨hnull, -⟩
    exact (Nat.lt_or_ge (num * size) (2^64)).imp_right hnull
  · intro hok
    refine ⟨fun hbig => hok.resolve_left (Nat.not_lt.mpr hbig), fun hret => ?_⟩
    have hlt := hok.resolve_right hret
    obtain ⟨built, g, hinv⟩ := hrun.inv hpolicy hsound
    obtain ⟨y, hy, hzero⟩ := hinv.zeroed_afterRequest sys.live hret
    rw [if_pos hret]
    rw [mul64_of_lt hlt] at hzero ⊢
    exact ⟨y, hy, (fun x hx => nomatch hx), hzero⟩

theorem HeapsInv.arrayBehind_kept (h : HeapsInv A sys built g) (hx : x ∈ sys.live)
    (hu : getUsableSize A x.ptr sys.allocator sys.memory = some usable) (hn : n ≤ usable) :
    AllocatorSystem.ArrayBehind ⟨sys.allocator, memset x.ptr n sys.memory, sys.live⟩ (some x) n x.ptr ↔
      sys.KeepsInside x usable n := by
  have hholds := h.blockHolds_iff (n := n) hx hu
  constructor
  · rintro ⟨y, -, hsame, hblock, -⟩ _
    obtain rfl := hsame x rfl rfl
    exact hholds.mp ((blockHolds_memset (h.header_le hx)).mp hblock)
  · intro hinside
    exact ⟨x, rfl, fun y hy _ => Option.some.inj hy,
      (blockHolds_memset (h.header_le hx)).mpr (hholds.mpr (hinside hn)), fun b hlo hhi => if_pos ⟨hlo, hhi⟩⟩

theorem arrayBehind_moved {owner : Option Nat} (hpolicy : A.localHeap.concurrency = .threadLocal)
    (hsound : SoundCreation params creation)
    (h : AllocatorRun A params creation (AllocatorSystem.KeepsIntervals A) (sys.afterRequest owner n ret a mem))
    (live : List Held) (hret : ret ≠ 0) (hx : x ∈ sys.live) (hold : usable ≤ n) :
    ∃ a' mem', deallocate A x.ptr a (memcpy ret x.ptr usable mem) = some (a', mem') ∧
      AllocatorSystem.ArrayBehind ⟨a', memset ret n mem', live⟩ (some x) n ret := by
  obtain ⟨hne, a', mem', hfree, hrun, -⟩ := h.moved hpolicy hsound hret hx hold
  obtain ⟨built, g, hinv⟩ := hrun.inv hpolicy hsound
  refine ⟨a', mem', hfree, _, rfl, fun x' hx' hp => ?_, hinv.zeroed List.mem_cons_self (hinv.fits _ List.mem_cons_self)⟩
  obtain rfl := Option.some.inj hx'
  exact absurd hp.symm hne

/-- What a reallocation leaves behind is whole exactly when its size was not cut, or nothing was found for it;
and a block that is kept has to reach over the array behind its padding. -/
theorem zeroesWhole_reallocated (hpolicy : A.localHeap.concurrency = .threadLocal)
    (hsound : SoundCreation params creation)
    (h : AllocatorRun A params creation (AllocatorSystem.KeepsIntervals A) sys)
    (hcall : sys.SoundCall A answers thread (mul64 num size))
    (hx : x ∈ sys.live) (hu : getUsableSize A x.ptr sys.allocator sys.memory = some usable) :
    sys.ZeroesWhole (some x) num size
        (reallocateAndZeroMemory A answers thread x.ptr num size sys.allocator sys.memory) ↔
      mul64 num size = 0 ∨ (usable < mul64 num size ∧ sys.Refuses A answers thread (mul64 num size)) ∨
        (num * size < 2^64 ∧ sys.KeepsInside x usable (num * size)) := by
  obtain ⟨built, g, hinv⟩ := h.inv hpolicy hsound
  have hptr := hinv.ptr_ne_zero hx
  rw [reallocateAndZeroMemory, reallocate, reallocateWith, if_neg hptr, AllocatorSystem.Refuses]
  by_cases hzero : mul64 num size = 0
  · obtain ⟨_, s', mem', _, _, _, _, hfree, -⟩ := hinv.deallocate_ok hx
    rw [if_pos hzero, hfree]
    exact iff_of_true (zeroesWhole_some.mpr ⟨fun _ => rfl, fun hne => absurd rfl hne⟩) (.inl hzero)
  rw [if_neg hzero, hu]
  dsimp only
  by_cases hle : mul64 num size ≤ usable
  · rw [if_pos hle, zeroesWhole_some, if_pos hptr]
    constructor
    · rintro ⟨hnull, hwhole⟩
      have hlt : num * size < 2^64 := Nat.lt_of_not_le fun hbig => hptr (hnull hbig)
      rw [mul64_of_lt hlt] at hle hwhole
      exact .inr (.inr ⟨hlt, (hinv.arrayBehind_kept hx hu hle).mp (hwhole hptr)⟩)
    · rintro (hz | ⟨hmore, -⟩ | ⟨hlt, hinside⟩)
      · exact absurd hz hzero
      · exact absurd hle (Nat.not_le.mpr hmore)
      rw [mul64_of_lt hlt] at hle ⊢
      exact ⟨fun hbig => absurd hlt (Nat.not_lt.mpr hbig), fun _ => (hinv.arrayBehind_kept hx hu hle).mpr hinside⟩
  · rw [if_neg hle]
    have hless := Nat.lt_of_not_le hle
    -- a product that fits is beyond the block, so nothing is kept in its place
    have hkeeps (hlt : num * size < 2^64) : sys.KeepsInside x usable (num * size) := by
      intro hin
      rw [mul64_of_lt hlt] at hle
      exact absurd hin hle
    rw [or_iff_right hzero, and_iff_right hless, and_iff_left_of_imp hkeeps, or_comm]
    obtain ⟨ret, central, a, mem, owner, hserved, hrun, -⟩ := h.allocate_ok hpolicy hsound hcall
    rw [hserved, Option.map_some, Option.some.injEq]
    dsimp only
    by_cases hret : ret = 0
    · rw [if_neg (not_not.mpr hret)]
      exact iff_of_true (zeroesWhole_some.mpr ⟨fun _ => hret, fun hne => absurd hret hne⟩) (.inr hret)
    rw [if_pos hret, or_iff_left hret]
    obtain ⟨a', mem', hfree, hwhole⟩ := arrayBehind_moved hpolicy hsound hrun sys.live hret hx hless.le
    rw [hfree, Option.map_some, zeroesWhole_some, if_pos hret]
    constructor
    · rintro ⟨hnull, -⟩
      exact Nat.lt_of_not_le fun hbig => hret (hnull hbig)
    · intro hlt
      rw [mul64_of_lt hlt] at hwhole ⊢
      exact ⟨fun hbig => absurd hlt (Nat.not_lt.mpr hbig), fun _ => hwhole⟩

/-- In every run in which the intervals of the local heaps stay right, the calls for arrays of zeros deliver the
whole array as long as the machine word holds its size, and in no other case but that the rest of the size is refused;
a reallocation that keeps its block overlooks the padding in front of it. -/
theorem zeroed_memory_iff (hpolicy : A.localHeap.concurrency = .threadLocal) (hsound : SoundCreation params creation)
    (h : AllocatorRun A params creation (AllocatorSystem.KeepsIntervals A) sys)
    (hcall : sys.SoundCall A answers thread (mul64 num size)) :
    (sys.ZeroesWhole none num size (allocateAndZeroMemory A answers thread num size sys.allocator sys.memory) ↔
      num * size < 2^64 ∨ sys.Refuses A answers thread (mul64 num size)) ∧
    reallocateAndZeroMemory A answers thread 0 num size sys.allocator sys.memory =
      allocateAndZeroMemory A answers thread num size sys.allocator sys.memory ∧
    ∀ x ∈ sys.live, ∃ usable, getUsableSize A x.ptr sys.allocator sys.memory = some usable ∧
      (sys.ZeroesWhole (some x) num size
          (reallocateAndZeroMemory A answers thread x.ptr num size sys.allocator sys.memory) ↔
        mul64 num size = 0 ∨ (usable < mul64 num size ∧ sys.Refuses A answers thread (mul64 num size)) ∨
          (num * size < 2^64 ∧ sys.KeepsInside x usable (num * size))) := by
  obtain ⟨built, g, hinv⟩ := h.inv hpolicy hsound
  refine ⟨zeroesWhole_allocated hpolicy hsound h hcall, ?_, fun x hx => ?_⟩
  · rw [reallocateAndZeroMemory, reallocate, reallocateWith, if_pos rfl, allocateAndZeroMemory]
    rcases allocate A answers thread (mul64 num size) sys.allocator sys.memory with _ | ⟨ret, central, a, mem⟩
    · rfl
    · rfl
  · obtain ⟨c, -, -, -, -, hu⟩ := hinv.getUsableSize_eq hx
    exact ⟨_, hu, zeroesWhole_reallocated hpolicy hsound h hcall hx hu⟩

end

/-- The thread zeroes an array of two words, and keeps that of the central heap in its place. -/
theorem zeroed_memory_of_two : ∃ sys, (oneThreadAllocator.localHeap.concurrency = .threadLocal ∧
      SoundCreation cachedHeapParams cachedHeapAnswers ∧
      AllocatorRun oneThreadAllocator cachedHeapParams cachedHeapAnswers
        (AllocatorSystem.KeepsIntervals oneThreadAllocator) sys ∧
      sys.SoundCall oneThreadAllocator exhaustedAnswers 7 (mul64 2 8)) ∧
    (allocateAndZeroMemory oneThreadAllocator exhaustedAnswers 7 2 8 sys.allocator sys.memory).map (·.1) =
      some 2101216 ∧
    sys.ZeroesWhole none 2 8
      (allocateAndZeroMemory oneThreadAllocator exhaustedAnswers 7 2 8 sys.allocator sys.memory) ∧
    sys.ZeroesWhole (some ⟨1052656, 16, none, .small 0⟩) 2 8
      (reallocateAndZeroMemory oneThreadAllocator exhaustedAnswers 7 1052656 2 8 sys.allocator sys.memory) := by
  have hstate : (afterActions twoRequests).map (fun sys => (sys.live,
      (allocateAndZeroMemory oneThreadAllocator exhaustedAnswers 7 2 8 sys.allocator sys.memory).map (·.1))) =
      some ([⟨1052656, 16, none, .small 0⟩, ⟨2101232, 16, some 0, .small 0⟩], some 2101216) := by decide +kernel
  obtain ⟨sys, h, hstate⟩ := Option.map_eq_some_iff.mp hstate
  simp only [Prod.mk.injEq] at hstate
  have hrun := keepsIntervals_afterActions asksNothing_twoRequests h
  have hcall := @soundCall_exhausted oneThreadAllocator 7 (mul64 2 8) sys
  obtain ⟨hnew, -, hold⟩ := zeroed_memory_iff rfl soundCreation_cached hrun hcall
  rw [hstate.1] at hold
  obtain ⟨usable, -, hkept⟩ := hold _ List.mem_cons_self
  refine ⟨sys, ⟨rfl, soundCreation_cached, hrun, hcall⟩, hstate.2, hnew.mpr (.inl (by decide)),
    hkept.mpr (.inr (.inr ⟨by decide, id⟩))⟩

/-- An array of more than `2^64` bytes wraps to one of 16, and these are granted. -/
theorem zeroed_memory_cut : ∃ sys, AllocatorRun oneThreadAllocator cachedHeapParams cachedHeapAnswers
      (AllocatorSystem.KeepsIntervals oneThreadAllocator) sys ∧
    sys.SoundCall oneThreadAllocator exhaustedAnswers 7 (mul64 (2^60 + 1) 16) ∧
    (allocateAndZeroMemory oneThreadAllocator exhaustedAnswers 7 (2^60 + 1) 16 sys.allocator sys.memory).map (·.1) =
      some 2101216 ∧
    ¬ sys.ZeroesWhole none (2^60 + 1) 16
      (allocateAndZeroMemory oneThreadAllocator exhaustedAnswers 7 (2^60 + 1) 16 sys.allocator sys.memory) := by
  have hstate : (afterActions twoRequests).map (fun sys =>
      (allocateAndZeroMemory oneThreadAllocator exhaustedAnswers 7 (2^60 + 1) 16 sys.allocator sys.memory).map (·.1)) =
      some (some 2101216) := by decide +kernel
  obtain ⟨sys, h, hret⟩ := Option.map_eq_some_iff.mp hstate
  refine ⟨sys, keepsIntervals_afterActions asksNothing_twoRequests h, soundCall_exhausted, hret,
    fun hwhole => ?_⟩
  have hnull := hwhole.1 (by decide)
  rw [hret] at hnull
  exact absurd hnull (by decide)

end Metamalloc.Allocator
