import Metamalloc.Allocator.AlignedFailover
import Metamalloc.Allocator.AllocationCalls
import Metamalloc.Heaps.AlignedBlocks

/-! Reallocation of aligned pointers. Whether the pointer is kept is decided by the size that is reported for it,
which knows nothing of the alignment and of the place of the pointer in its block. -/
namespace Metamalloc.Allocator
open Library.Word64 Library.ByteMemory Pages Segments Heaps ScalableAllocator

namespace AllocatorSystem
variable (A : AllocatorType)

/-- A pointer from an aligned allocation of some bytes, with the block behind it. -/
structure AlignedHeld (sys : AllocatorSystem) (x : Held) (size k ptr : Nat) : Prop where
  mem : x ∈ sys.live
  power : k < 64
  size_eq : x.size = HeapBase.underlyingSize size (2^k)
  fits : 2^k ≤ minimumAlignment ∨ size + 2^k < 2^64
  ptr_eq : ptr = HeapBase.alignedAnswer x.ptr (2^k)

/-- The pointer is aligned, and the bytes behind it lie in the block of the allocation. -/
structure InBlock (sys : AllocatorSystem) (y : Held) (ptr size alignment : Nat) : Prop where
  aligned : alignment ∣ ptr
  above : y.ptr ≤ ptr
  inside : sys.BlockHolds y (ptr - y.ptr + size)

/-- The block behind the pointer that a reallocation returns: that of the old pointer, when its reported size is
enough, or the one that the call has reserved. -/
def BlockOf (answers : CallAnswers) (thread size alignment usable : Nat) (sys : AllocatorSystem) (x y : Held)
    (sys' : AllocatorSystem) : Prop :=
  (size ≤ usable ∧ y = x ∧ sys' = sys) ∨
    (usable < size ∧ sys.CallLeads A answers thread (HeapBase.underlyingSize size alignment) sys' ∧
      sys'.live = y :: sys.live)

/-- Every pointer but null that a reallocation returns is aligned and has its bytes in the one block. -/
def DeliversAligned (answers : CallAnswers) (thread ptr size alignment usable : Nat) (sys : AllocatorSystem)
    (x : Held) : Prop :=
  ∀ ret a mem, alignedReallocate A answers thread ptr size alignment sys.allocator sys.memory = some (ret, a, mem) →
    ret ≠ 0 → ∃ y sys', BlockOf A answers thread size alignment usable sys x y sys' ∧
      sys'.InBlock y ret size alignment

/-- The heap that a call of the thread asks first serves the request. -/
def FirstServes (answers : CallAnswers) (thread size : Nat) (sys : AllocatorSystem) : Prop :=
  ∃ heap s, getThreadLocalHeap A answers.heap thread sys.allocator sys.memory = some (heap, s) ∧
    ∃ p s', p ≠ 0 ∧ (match heap with
      | none => onCentralHeap (SimpleHeapPow2.allocate A.centralHeap answers.arena size) s
      | some i => onLocalHeap (SimpleHeapPow2.allocate A.localHeap answers.arena size) i s) = some (p, s')

end AllocatorSystem

section
variable {A : AllocatorType} {params : CreationParams} {creation : CreationAnswers} {sys : AllocatorSystem}
  {built : Nat → Prop} {g : Option Nat × SegmentId → Ghost} {answers : CallAnswers}
  {thread size n k k₀ ptr ret alignment usable : Nat} {a : ScalableAllocator} {mem : Memory} {x y : Held}

theorem HeapsInv.ptr_aligned (h : HeapsInv A sys built g) (hx : x ∈ sys.live) : x.ptr % 16 = 0 := by
  obtain ⟨c, -, howned, -, -⟩ := h.page hx
  exact (h.heapInv (h.held x hx).1).owned_aligned howned

theorem HeapsInv.granted_lt (h : HeapsInv A sys built g) (hx : x ∈ sys.live) : x.ptr + x.size < 2^64 := by
  obtain ⟨c, hc, howned, -, -⟩ := h.page hx
  have hinv := (h.family.system x.place (h.held x hx).1).segment
  have hin := hinv.owned_inside howned
  have hlt := hinv.inside c hc
  have hfits := h.fits x hx
  simp only [atRest, Held.allocation] at hin hlt hfits
  omega

theorem allocateAligned_of_le (h : alignment ≤ minimumAlignment) :
    allocateAligned A answers thread size alignment = allocate A answers thread size := by
  funext a mem
  unfold allocateAligned allocate
  congr
  funext H heap mem
  rw [HeapBase.allocateAligned, if_pos h]

/-- A request that the first heap serves, and the aligned call over it. -/
theorem AllocatorSystem.FirstServes.allocate
    (h : sys.FirstServes A answers thread (HeapBase.underlyingSize size alignment)) :
    ∃ p central a mem, p ≠ 0 ∧
      allocate A answers thread (HeapBase.underlyingSize size alignment) sys.allocator sys.memory =
        some (p, central, a, mem) ∧
      (HeapBase.alignedAnswer p alignment ≠ 0 →
        allocateAligned A answers thread size alignment sys.allocator sys.memory =
          some (HeapBase.alignedAnswer p alignment, central, a, mem)) := by
  obtain ⟨heap, s, hget, p, ⟨a, mem⟩, hp, hserves⟩ := h
  cases heap with
  | none =>
    refine ⟨p, true, a, mem, hp, ?_, fun _ => ?_⟩
    · simp only [ScalableAllocator.allocate, allocateFrom, hget, Option.map_none, failover, hserves, Option.map_some]
    · simp only [allocateAligned, allocateFrom, hget, Option.map_none, failover, onCentralHeap_aligned hserves,
        Option.map_some]
  | some i =>
    refine ⟨p, false, a, mem, hp, ?_, fun hne => ?_⟩
    · simp only [ScalableAllocator.allocate, allocateFrom, hget, Option.map_some, failover, hserves, if_neg hp]
    · simp only [allocateAligned, allocateFrom, hget, Option.map_some, failover, onLocalHeap_aligned hserves,
        if_neg hne]

theorem AllocatorSystem.BlockHolds.mono {m : Nat} (h : sys.BlockHolds x n) (hm : m ≤ n) : sys.BlockHolds x m := by
  obtain ⟨l, page, hlists, hpage, hon, hend⟩ := h
  exact ⟨l, page, hlists, hpage, hon, (Nat.add_le_add_left hm _).trans hend⟩

/-- The block that an aligned allocation has reserved has room for its bytes. -/
theorem HeapsInv.inBlock (h : HeapsInv A sys built g) (hx : sys.AlignedHeld x size k ptr) :
    sys.InBlock x ptr size (2^k) := by
  have hlt := h.granted_lt hx.mem
  rw [hx.size_eq] at hlt
  obtain ⟨⟨hlo, hhi⟩, hroom⟩ := alignedAnswer_inside hx.power hx.fits hlt
  rw [← hx.ptr_eq] at hlo hhi
  refine ⟨?_, hlo, (h.blockHolds_granted hx.mem).mono ?_⟩
  · rw [hx.ptr_eq, HeapBase.alignedAnswer]
    by_cases hle : 2^k ≤ minimumAlignment
    · rw [if_pos hle]
      have hk : k ≤ 4 := (Nat.pow_le_pow_iff_right (by decide)).mp hle
      exact (Nat.pow_dvd_pow 2 hk).trans (Nat.dvd_of_mod_eq_zero (h.ptr_aligned hx.mem))
    · rw [if_neg hle]
      exact dvd_alignedPointer hx.power (hroom.resolve_left hle)
  · have hfits := h.fits x hx.mem
    rw [hx.size_eq] at hfits
    omega

theorem HeapsInv.aligned_ne_zero (h : HeapsInv A sys built g) (hx : sys.AlignedHeld x size k ptr) : ptr ≠ 0 := by
  have habove := (h.inBlock hx).above
  have hne := h.ptr_ne_zero hx.mem
  omega

/-- A pointer that is kept lies where its first allocation has put it. -/
theorem HeapsInv.deliversAligned_kept {whole : Nat} (h : HeapsInv A sys built g) (hx : sys.AlignedHeld x n k₀ ptr)
    (hsize : size ≠ 0) (hu : getUsableSize A ptr sys.allocator sys.memory = some usable) (hle : size ≤ usable)
    (hwhole : getUsableSize A x.ptr sys.allocator sys.memory = some whole) :
    sys.DeliversAligned A answers thread ptr size alignment usable x ↔
      alignment ∣ ptr ∧ ptr - x.ptr + size + paddingOf x.segment x.ptr sys.memory.bytes ≤ whole := by
  have hptr := h.aligned_ne_zero hx
  have hresult : alignedReallocate A answers thread ptr size alignment sys.allocator sys.memory =
      some (ptr, sys.allocator, sys.memory) := by
    rw [alignedReallocate, reallocateWith, if_neg hptr, if_neg hsize, hu]
    exact if_pos hle
  rw [← h.blockHolds_iff hx.mem hwhole]
  constructor
  · intro hdelivers
    obtain ⟨y, sys', hblock, hin⟩ := hdelivers ptr _ _ hresult hptr
    rcases hblock with ⟨-, rfl, rfl⟩ | ⟨hlt, -, -⟩
    · exact ⟨hin.aligned, hin.inside⟩
    · exact absurd hle (Nat.not_le.mpr hlt)
  · rintro ⟨haligned, hinside⟩ ret a mem he _
    cases hresult.symm.trans he
    exact ⟨x, sys, .inl ⟨hle, rfl, rfl⟩, haligned, (h.inBlock hx).above, hinside⟩

/-- The call under the aligned one reserves a block of the padded size. -/
theorem AllocatorRun.reserved {p : Nat} {central : Bool} (hpolicy : A.localHeap.concurrency = .threadLocal)
    (hsound : SoundCreation params creation)
    (h : AllocatorRun A params creation (AllocatorSystem.KeepsIntervals A) sys)
    (hcall : sys.SoundCall A answers thread (HeapBase.underlyingSize size (2^k))) (hk : k < 64)
    (hfits : 2^k ≤ minimumAlignment ∨ size + 2^k < 2^64) (hp : p ≠ 0)
    (he : allocate A answers thread (HeapBase.underlyingSize size (2^k)) sys.allocator sys.memory =
      some (p, central, a, mem)) (x : Held) (hlt : usable < size) :
    HeapBase.alignedAnswer p (2^k) ≠ 0 ∧ ∃ y sys',
      AllocatorSystem.BlockOf A answers thread size (2^k) usable sys x y sys' ∧
      sys'.InBlock y (HeapBase.alignedAnswer p (2^k)) size (2^k) := by
  obtain ⟨_, _, _, _, owner, he', hrun, hleads, -⟩ := h.allocate_ok hpolicy hsound hcall
  cases he.symm.trans he'
  obtain ⟨built, g, hinv⟩ := hrun.inv hpolicy hsound
  have hlive := @HeapsInv.mem_afterRequest sys mem owner (HeapBase.underlyingSize size (2^k)) p a hp
  have hheld : (sys.afterRequest owner _ p a mem).AlignedHeld _ size k _ := ⟨hlive, hk, rfl, hfits, rfl⟩
  exact ⟨hinv.aligned_ne_zero hheld, _, _, .inr ⟨hlt, hleads, if_neg hp⟩, hinv.inBlock hheld⟩

/-- A new pointer is as the alignment asks for, if the heap that is asked first serves the padded request or no
padding is needed. -/
theorem AllocatorRun.deliversAligned_moved (hpolicy : A.localHeap.concurrency = .threadLocal)
    (hsound : SoundCreation params creation)
    (h : AllocatorRun A params creation (AllocatorSystem.KeepsIntervals A) sys)
    (hcall : sys.SoundCall A answers thread (HeapBase.underlyingSize size (2^k)))
    (hx : sys.AlignedHeld x n k₀ ptr) (hk : k < 64) (hsize : size ≠ 0)
    (hu : getUsableSize A ptr sys.allocator sys.memory = some usable) (hlt : usable < size)
    (hserves : 2^k ≤ minimumAlignment ∨
      sys.FirstServes A answers thread (HeapBase.underlyingSize size (2^k)) ∧ size + 2^k < 2^64) :
    sys.DeliversAligned A answers thread ptr size (2^k) usable x := by
  intro ret a mem he hret
  obtain ⟨built, g, hinv⟩ := h.inv hpolicy hsound
  rcases reallocateWith_cases (hinv.aligned_ne_zero hx) hsize hu he with
    ⟨hle, -⟩ | ⟨-, central, a₁, mem₁, hcalled, -⟩
  · exact absurd hlt (Nat.not_lt.mpr hle)
  have hfits : 2^k ≤ minimumAlignment ∨ size + 2^k < 2^64 := hserves.imp_right And.right
  obtain ⟨p, central', hp, hunder, hanswer⟩ : ∃ p central', p ≠ 0 ∧
      allocate A answers thread (HeapBase.underlyingSize size (2^k)) sys.allocator sys.memory =
        some (p, central', a₁, mem₁) ∧ ret = HeapBase.alignedAnswer p (2^k) := by
    rcases hserves with hle | ⟨hfirst, -⟩
    · have hunder : HeapBase.underlyingSize size (2^k) = size := if_pos hle
      rw [allocateAligned_of_le hle] at hcalled
      rw [hunder]
      exact ⟨ret, central, hret, hcalled, (if_pos hle).symm⟩
    · obtain ⟨p, central', a', mem', hp, hunder, haligned⟩ := hfirst.allocate
      cases hcalled.symm.trans (haligned (h.reserved hpolicy hsound hcall hk hfits hp hunder x hlt).1)
      exact ⟨p, central, hp, hunder, rfl⟩
  rw [hanswer]
  exact (h.reserved hpolicy hsound hcall hk hfits hp hunder x hlt).2

/-- In every run in which the intervals of the local heaps stay right: a pointer that is kept is as it should be
exactly when it already is, with the new size behind it in its block; and a new one is, if the heap that is asked
first serves the padded request. -/
theorem alignedReallocate_delivers (hpolicy : A.localHeap.concurrency = .threadLocal)
    (hsound : SoundCreation params creation)
    (h : AllocatorRun A params creation (AllocatorSystem.KeepsIntervals A) sys) (hx : sys.AlignedHeld x n k₀ ptr)
    (hk : k < 64) (hsize : 0 < size) (hcall : sys.SoundCall A answers thread (HeapBase.underlyingSize size (2^k))) :
    (0 < n → ∃ usable, getUsableSize A ptr sys.allocator sys.memory = some usable) ∧
    ∃ whole, getUsableSize A x.ptr sys.allocator sys.memory = some whole ∧
    ∀ usable, getUsableSize A ptr sys.allocator sys.memory = some usable →
      (size ≤ usable → (sys.DeliversAligned A answers thread ptr size (2^k) usable x ↔
        2^k ∣ ptr ∧ ptr - x.ptr + size + paddingOf x.segment x.ptr sys.memory.bytes ≤ whole)) ∧
      (usable < size → (2^k ≤ minimumAlignment ∨
          sys.FirstServes A answers thread (HeapBase.underlyingSize size (2^k)) ∧ size + 2^k < 2^64) →
        sys.DeliversAligned A answers thread ptr size (2^k) usable x) := by
  obtain ⟨built, g, hinv⟩ := h.inv hpolicy hsound
  obtain ⟨c, hc, howned, hlo, -, hwhole⟩ := hinv.getUsableSize_eq hx.mem
  refine ⟨fun hn => ⟨_, hinv.usable_of_page (hinv.held x hx.mem).1 (hinv.held x hx.mem).2 hc ?_ ?_⟩, _, hwhole,
    fun usable hu => ⟨fun hle => hinv.deliversAligned_kept hx hsize.ne' hu hle hwhole,
      fun hlt => h.deliversAligned_moved hpolicy hsound hcall hx hk hsize.ne' hu hlt⟩⟩
  · exact hlo.trans (hinv.inBlock hx).above
  · have hend := (hinv.family.system x.place (hinv.held x hx.mem).1).segment.owned_inside howned
    have hfits := hinv.fits x hx.mem
    have hlt := hinv.granted_lt hx.mem
    rw [hx.size_eq] at hlt hfits
    have hin := (alignedAnswer_inside hx.power hx.fits hlt).1
    rw [← hx.ptr_eq] at hin
    simp only [atRest, Held.allocation] at hend hfits
    exact lt_of_lt_of_le (by omega) hend.2.2

end

/-- A thread takes 32 bytes from its heap on a multiple of 32: a chunk of 64 bytes, and the pointer to its second
half. -/
def alignedRequest : List AllocatorAction := [.getThreadLocalHeap 7 refusedHeap, .allocateLocal 7 64 refusingArena]

theorem asksNothing_alignedRequest : ∀ action ∈ alignedRequest, AsksNothing action := by
  simp only [alignedRequest, List.forall_mem_cons]
  exact ⟨.getThreadLocalHeap 7, .allocateLocal 7 64, by simp⟩

theorem alignedHeld_alignedRequest {sys : AllocatorSystem} (h : sys.live = [⟨2109376, 64, some 0, .small 2⟩]) :
    sys.AlignedHeld ⟨2109376, 64, some 0, .small 2⟩ 32 5 2109408 :=
  ⟨h ▸ List.mem_singleton_self _, by decide, by decide +kernel, .inr (by decide), by decide +kernel⟩

/-- As many bytes as before are kept in their place, and 100 bytes get a new block. -/
theorem alignedReallocate_delivers_of_two : ∃ sys, (oneThreadAllocator.localHeap.concurrency = .threadLocal ∧
      SoundCreation cachedHeapParams cachedHeapAnswers ∧
      AllocatorRun oneThreadAllocator cachedHeapParams cachedHeapAnswers
        (AllocatorSystem.KeepsIntervals oneThreadAllocator) sys ∧
      sys.AlignedHeld ⟨2109376, 64, some 0, .small 2⟩ 32 5 2109408) ∧
    sys.DeliversAligned oneThreadAllocator exhaustedAnswers 7 2109408 32 (2^5) 64 ⟨2109376, 64, some 0, .small 2⟩ ∧
    sys.DeliversAligned oneThreadAllocator exhaustedAnswers 7 2109408 100 (2^5) 64
      ⟨2109376, 64, some 0, .small 2⟩ := by
  have hstate : (afterActions alignedRequest).map (fun sys => (sys.live,
      (getUsableSize oneThreadAllocator 2109376 sys.allocator sys.memory,
        getUsableSize oneThreadAllocator 2109408 sys.allocator sys.memory),
      (getThreadLocalHeap oneThreadAllocator exhaustedAnswers.heap 7 sys.allocator sys.memory).bind fun r =>
        (onLocalHeap (SimpleHeapPow2.allocate oneThreadAllocator.localHeap exhaustedAnswers.arena
          (HeapBase.underlyingSize 100 (2^5))) 0 r.2).map fun s => (r.1, s.1))) =
      some ([⟨2109376, 64, some 0, .small 2⟩], (some 64, some 64), some (some 0, 2117184)) := by decide +kernel
  obtain ⟨sys, h, hstate⟩ := Option.map_eq_some_iff.mp hstate
  simp only [Prod.mk.injEq] at hstate
  obtain ⟨hlive, ⟨hwhole, husable⟩, hserves⟩ := hstate
  have hrun := keepsIntervals_afterActions asksNothing_alignedRequest h
  have hheld := alignedHeld_alignedRequest hlive
  have hcall (size : Nat) := @soundCall_exhausted oneThreadAllocator 7 (HeapBase.underlyingSize size (2^5)) sys
  obtain ⟨-, whole, hu, hkept⟩ := alignedReallocate_delivers rfl soundCreation_cached hrun hheld (by decide)
    (by decide) (hcall 32)
  obtain ⟨-, _, -, hmoved⟩ := alignedReallocate_delivers rfl soundCreation_cached hrun hheld (by decide)
    (by decide) (hcall 100)
  obtain rfl := Option.some.inj (hwhole.symm.trans hu)
  obtain ⟨⟨heap, s⟩, hget, hserves⟩ := Option.bind_eq_some_iff.mp hserves
  obtain ⟨⟨p, s'⟩, hserves, heq⟩ := Option.map_eq_some_iff.mp hserves
  simp only [Prod.mk.injEq] at heq
  obtain ⟨rfl, rfl⟩ := heq
  have hfirst : sys.FirstServes oneThreadAllocator exhaustedAnswers 7 (HeapBase.underlyingSize 100 (2^5)) :=
    ⟨some 0, s, hget, 2117184, s', by decide, hserves⟩
  refine ⟨sys, ⟨rfl, soundCreation_cached, hrun, hheld⟩, ((hkept 64 husable).1 (by decide)).mpr ?_,
    (hmoved 64 husable).2 (by decide) (.inr ⟨hfirst, by decide⟩)⟩
  exact ⟨by decide, by simp only [paddingOf]; decide⟩

/-- A chunk of 64 bytes is reported for the pointer to its second half: it is kept for 64 bytes, of which 32 belong
to the next chunk, and for a multiple of 4096, which it is not. -/
theorem alignedReallocate_keeps_interior : ∃ sys, AllocatorRun oneThreadAllocator cachedHeapParams cachedHeapAnswers
      (AllocatorSystem.KeepsIntervals oneThreadAllocator) sys ∧
    sys.AlignedHeld ⟨2109376, 64, some 0, .small 2⟩ 32 5 2109408 ∧
    getUsableSize oneThreadAllocator 2109408 sys.allocator sys.memory = some 64 ∧
    ¬ sys.DeliversAligned oneThreadAllocator exhaustedAnswers 7 2109408 64 32 64 ⟨2109376, 64, some 0, .small 2⟩ ∧
    ¬ sys.DeliversAligned oneThreadAllocator exhaustedAnswers 7 2109408 16 4096 64
      ⟨2109376, 64, some 0, .small 2⟩ := by
  have hstate : (afterActions alignedRequest).map (fun sys => (sys.live,
      getUsableSize oneThreadAllocator 2109376 sys.allocator sys.memory,
      getUsableSize oneThreadAllocator 2109408 sys.allocator sys.memory)) =
      some ([⟨2109376, 64, some 0, .small 2⟩], some 64, some 64) := by decide +kernel
  obtain ⟨sys, h, hstate⟩ := Option.map_eq_some_iff.mp hstate
  simp only [Prod.mk.injEq] at hstate
  obtain ⟨hlive, hwhole, husable⟩ := hstate
  have hrun := keepsIntervals_afterActions asksNothing_alignedRequest h
  have hheld := alignedHeld_alignedRequest hlive
  obtain ⟨built, g, hinv⟩ := hrun.inv rfl soundCreation_cached
  refine ⟨sys, hrun, hheld, husable, fun hdelivers => ?_, fun hdelivers => ?_⟩
  · have hin := ((hinv.deliversAligned_kept hheld (by decide) husable (by decide) hwhole).mp hdelivers).2
    exact absurd hin (by simp only [paddingOf]; decide)
  · have hdvd := ((hinv.deliversAligned_kept hheld (by decide) husable (by decide) hwhole).mp hdelivers).1
    exact absurd hdvd (by decide)

end Metamalloc.Allocator
