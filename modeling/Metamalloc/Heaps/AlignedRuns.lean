import Metamalloc.Heaps.HeapBase
import Metamalloc.Heaps.HeapRuns

/-! Aligned allocations along a run, and what `deallocate` makes of the interior pointers
that `allocate_aligned` gives out. -/
namespace Metamalloc.Heaps
open Library.Word64 Library.ByteMemory Library.LinkedList Pages Segments

/-- An allocation a client holds, with the block of the heap that is behind it. -/
structure AlignedGrant where
  block : Grant
  size : Nat
  alignment : Nat
  deriving DecidableEq

def AlignedGrant.ptr (x : AlignedGrant) : Nat := HeapBase.alignedAnswer x.block.ptr x.alignment

structure AlignedSystem where
  heap : SimpleHeapPow2
  memory : Memory
  live : List AlignedGrant

inductive AlignedAction where
  | allocateAligned (size alignment : Nat) (arena : ArenaAnswers)
  | deallocate (x : AlignedGrant)
  | store (address : Nat) (value : UInt8)

/-- The block a deallocation of the pointer puts back into the free store of the page. -/
def freedBlock : SegmentId → (ptr : Nat) → Page → Nat × Nat
  | .small _ => LogicalPage.freedBlock
  | .big => LogicalPageAnySize.freedBlock

namespace AlignedSystem
variable (H : HeapType)

def blocks (sys : AlignedSystem) : HeapSystem :=
  ⟨sys.heap, sys.memory, sys.live.map AlignedGrant.block⟩

/-- A request that the heap itself refuses leaves no allocation, whatever is returned for it. -/
def afterAllocate (sys : AlignedSystem) (size alignment : Nat) : Nat × SimpleHeapPow2 × Memory → AlignedSystem
  | (block, heap, mem) =>
    let adjustedSize := HeapBase.underlyingSize size alignment
    let id := (SimpleHeapPow2.requestTarget adjustedSize).1
    ⟨heap, mem, if block = 0 then sys.live
      else ⟨⟨block, adjustedSize, id, (heap.segment id).lastUsed⟩, size, alignment⟩ :: sys.live⟩

def perform (sys : AlignedSystem) : AlignedAction → Option AlignedSystem
  | .allocateAligned size alignment arena =>
    (SimpleHeapPow2.allocate H arena (HeapBase.underlyingSize size alignment) sys.heap sys.memory).map
      (sys.afterAllocate size alignment)
  | .deallocate x => (SimpleHeapPow2.deallocate H x.ptr sys.heap sys.memory).map fun (heap, mem) =>
      ⟨heap, mem, sys.live.erase x⟩
  | .store address value =>
    some { sys with memory.bytes := Function.update sys.memory.bytes address value }

def Allowed (sys : AlignedSystem) : AlignedAction → Prop
  | .allocateAligned _ alignment arena => (∃ k < 64, alignment = 2^k) ∧ sys.blocks.FreshAnswers arena
  | .deallocate x => x ∈ sys.live
  | .store address _ => ∃ x ∈ sys.live, x.ptr ≤ address ∧ address < x.ptr + x.size

/-- The block comes from the big bin, and the 16 bytes in front of the interior pointer happen
to be a second header of it. -/
structure HeaderRepeated (sys : AlignedSystem) (x : AlignedGrant) : Prop where
  big : x.block.segment = .big
  onPage : onPage (sys.heap.segment .big).logicalPageSize x.block.page x.ptr = true
  padding : read64 sys.memory.bytes (x.ptr - 16) =
    add64 (read64 sys.memory.bytes (x.block.ptr - 16)) (x.ptr - x.block.ptr)
  size : read64 sys.memory.bytes (x.ptr - 8) = read64 sys.memory.bytes (x.block.ptr - 8)

/-- No size overflows, and every interior pointer that is given back has its header repeated. -/
def Harmless (sys : AlignedSystem) : AlignedAction → Prop
  | .allocateAligned size alignment _ => alignment ≤ minimumAlignment ∨ size + alignment < 2^64
  | .deallocate x => x.alignment ≤ minimumAlignment ∨ sys.HeaderRepeated x
  | .store _ _ => True

end AlignedSystem

/-- The states of runs of a new heap in which every step is allowed and harmless. -/
inductive AlignedReachable (H : HeapType) : AlignedSystem → Prop
  | start {sys : HeapSystem} (h : HeapReachable H sys) (hlive : sys.live = []) :
      AlignedReachable H ⟨sys.heap, sys.memory, []⟩
  | step {sys sys' : AlignedSystem} {action : AlignedAction} (h : AlignedReachable H sys)
      (ha : sys.Allowed action) (hh : sys.Harmless action) (hp : sys.perform H action = some sys') :
      AlignedReachable H sys'

/-- The blocks form a heap system, and the pointers lie in their blocks. -/
structure AlignedInv (H : HeapType) (sys : AlignedSystem) (g : SegmentId → Ghost) : Prop where
  blocks : HeapSystemInv H sys.blocks g
  inside : ∀ x ∈ sys.live, x.block.ptr ≤ x.ptr ∧ x.ptr + x.size ≤ x.block.ptr + x.block.size
  power : ∀ x ∈ sys.live, ∃ k < 64, x.alignment = 2^k
  fits : ∀ x ∈ sys.live, x.alignment ≤ minimumAlignment ∨ x.block.ptr + x.alignment < 2^64

section
variable {H : HeapType} {sys sys' : AlignedSystem} {g : SegmentId → Ghost} {x : AlignedGrant}
  {action : AlignedAction} {size alignment : Nat}

theorem laws_block (id : SegmentId) : (H.laws id).block = freedBlock id := by
  cases id <;> rfl

theorem HeapSystemInv.perm {heap : SimpleHeapPow2} {mem : Memory} {live live' : List Grant}
    (h : HeapSystemInv H ⟨heap, mem, live⟩ g) (hp : live.Perm live') :
    HeapSystemInv H ⟨heap, mem, live'⟩ g :=
  ⟨⟨h.inv.config, h.inv.family.perm (liveAt_perm hp)⟩, h.growCoefficient,
    fun x hx => h.taken x (hp.mem_iff.mpr hx)⟩

/-- Two pointers lead to one block when the header in front of the second repeats the first. -/
theorem freedBlock_big_iff {b r : Nat} {p : Page} (hb : 16 ≤ b) (hbr : b ≤ r) (hr : r < 2^64) :
    LogicalPageAnySize.freedBlock r p = LogicalPageAnySize.freedBlock b p ↔
      read64 p.bytes (r - 16) = add64 (read64 p.bytes (b - 16)) (r - b) ∧
      read64 p.bytes (r - 8) = read64 p.bytes (b - 8) := by
  have hlt := read64_lt p.bytes (r - 16)
  have hlt' := read64_lt p.bytes (b - 16)
  have h1 : sub64 r 16 = r - 16 := sub64_of_le (by omega) hr
  have h2 : sub64 b 16 = b - 16 := sub64_of_le hb (by omega)
  have h3 : r - 16 + 8 = r - 8 := by omega
  have h4 : b - 16 + 8 = b - 8 := by omega
  simp only [LogicalPageAnySize.freedBlock, LogicalPageAnySize.getPaddingSize,
    LogicalPageAnySize.getBlockSize, LogicalPageAnySize.nodeSize, h1, h2, h3, h4, Prod.mk.injEq]
  refine and_congr_left fun _ => ?_
  generalize read64 p.bytes (r - 16) = pr at hlt ⊢
  generalize read64 p.bytes (b - 16) = pb at hlt' ⊢
  unfold sub64 add64
  omega

theorem alignedAnswer_inside {b k : Nat} (hk : k < 64)
    (hh : 2^k ≤ minimumAlignment ∨ size + 2^k < 2^64)
    (hlt : b + HeapBase.underlyingSize size (2^k) < 2^64) :
    (b ≤ HeapBase.alignedAnswer b (2^k) ∧
      HeapBase.alignedAnswer b (2^k) + size ≤ b + HeapBase.underlyingSize size (2^k)) ∧
    (2^k ≤ minimumAlignment ∨ b + 2^k < 2^64) := by
  by_cases hle : 2^k ≤ minimumAlignment
  · simp only [HeapBase.alignedAnswer, HeapBase.underlyingSize, if_pos hle]
    exact ⟨⟨le_rfl, le_rfl⟩, .inl hle⟩
  · have hadd : HeapBase.underlyingSize size (2^k) = size + 2^k :=
      (if_neg hle).trans (add64_of_lt (hh.resolve_left hle))
    rw [hadd] at hlt ⊢
    have hb := alignedPointer_bounds (p := b) hk (by omega)
    simp only [HeapBase.alignedAnswer, if_neg hle]
    exact ⟨⟨hb.1.le, by omega⟩, .inr (by omega)⟩

theorem HeapSystemInv.block_lt {sys : HeapSystem} {y : Grant} (h : HeapSystemInv H sys g) (hy : y ∈ sys.live) :
    y.ptr + y.size < 2^64 := by
  have hin := h.granted_inside hy
  have hlt := (h.segmentInv y.segment).inside _ ((h.segmentInv y.segment).mem_of_owned (h.taken y hy).1)
  omega

namespace AlignedInv

theorem ptr_of_le (h : x.alignment ≤ minimumAlignment) : x.ptr = x.block.ptr := if_pos h

theorem ptr_gt (h : AlignedInv H sys g) (hx : x ∈ sys.live) (halign : minimumAlignment < x.alignment) :
    x.block.ptr < x.ptr ∧ x.ptr < 2^64 := by
  obtain ⟨k, hk, hpow⟩ := h.power x hx
  have hfits := (h.fits x hx).resolve_left (by omega)
  have hptr : x.ptr = HeapBase.alignedPointer x.block.ptr x.alignment := if_neg (by omega)
  rw [hpow] at hptr hfits
  have hb := alignedPointer_bounds hk hfits
  omega

theorem mem_blocks (hx : x ∈ sys.live) : x.block ∈ sys.blocks.live := List.mem_map_of_mem hx

/-- The condition is exactly what makes the interior pointer lead to the block. -/
theorem frees_iff (h : AlignedInv H sys g) (hx : x ∈ sys.live) (halign : minimumAlignment < x.alignment) :
    (onPage (sys.heap.segment x.block.segment).logicalPageSize x.block.page x.ptr = true ∧
      freedBlock x.block.segment x.ptr (sys.memory.page x.block.page) =
        freedBlock x.block.segment x.block.ptr (sys.memory.page x.block.page)) ↔ sys.HeaderRepeated x := by
  have hgt := h.ptr_gt hx halign
  have hin := h.blocks.granted_inside (mem_blocks hx)
  have h16 : 16 ≤ x.block.ptr := by
    simp only [logicalPageHeaderSize] at hin
    omega
  constructor
  · rintro ⟨hpage, hblock⟩
    cases hs : x.block.segment with
    | small i =>
      rw [hs] at hblock
      have hptr : x.ptr = x.block.ptr := congrArg Prod.fst hblock
      omega
    | big =>
      rw [hs] at hpage hblock
      obtain ⟨hpadding, hsize⟩ := (freedBlock_big_iff h16 hgt.1.le hgt.2).mp hblock
      exact ⟨hs, hpage, hpadding, hsize⟩
  · rintro ⟨hbig, hpage, hpadding, hsize⟩
    rw [hbig]
    exact ⟨hpage, (freedBlock_big_iff h16 hgt.1.le hgt.2).mpr ⟨hpadding, hsize⟩⟩

theorem frees (h : AlignedInv H sys g) (hx : x ∈ sys.live)
    (hh : x.alignment ≤ minimumAlignment ∨ sys.HeaderRepeated x) :
    Frees (H.laws x.block.segment) (sys.heap.segment x.block.segment) sys.memory x.block.page
      x.block.allocation x.ptr := by
  have hself : Frees (H.laws x.block.segment) (sys.heap.segment x.block.segment) sys.memory x.block.page
      x.block.allocation x.block.ptr :=
    (h.blocks.segmentInv x.block.segment).frees_self (h.blocks.taken x.block (mem_blocks hx)).1
  by_cases halign : x.alignment ≤ minimumAlignment
  · rw [ptr_of_le halign]
    exact hself
  · have hlt : minimumAlignment < x.alignment := Nat.lt_of_not_le halign
    obtain ⟨hpage, hblock⟩ := (h.frees_iff hx hlt).mpr (hh.resolve_left halign)
    have hgt := (h.ptr_gt hx hlt).1
    have hbehind := hself.behind
    simp only [onPage, Bool.and_eq_true, decide_eq_true_eq] at hpage
    refine ⟨by omega, hpage.2, ?_⟩
    rw [laws_block]
    exact hblock

theorem allocate_ok {arena : ArenaAnswers} (h : AlignedInv H sys g) (hdirect : H.concurrency ≠ .threadLocal)
    (ha : sys.Allowed (.allocateAligned size alignment arena))
    (hh : sys.Harmless (.allocateAligned size alignment arena)) :
    ∃ sys' g', sys.perform H (.allocateAligned size alignment arena) = some sys' ∧ AlignedInv H sys' g' := by
  obtain ⟨⟨k, hk, rfl⟩, harena⟩ := ha
  obtain ⟨⟨ret, heap, mem⟩, g', he, hinv⟩ : ∃ r g', SimpleHeapPow2.allocate H arena
      (HeapBase.underlyingSize size (2^k)) sys.blocks.heap sys.blocks.memory = some r ∧
      HeapSystemInv H (sys.blocks.afterAllocate (HeapBase.underlyingSize size (2^k)) r) g' :=
    h.blocks.allocate_ok hdirect harena
  refine ⟨_, g', Option.map_eq_some_iff.mpr ⟨_, he, rfl⟩, ?_⟩
  have hblocks : (sys.afterAllocate size (2^k) (ret, heap, mem)).blocks =
      sys.blocks.afterAllocate (HeapBase.underlyingSize size (2^k)) (ret, heap, mem) := by
    by_cases h0 : ret = 0
    · simp [AlignedSystem.afterAllocate, AlignedSystem.blocks, HeapSystem.afterAllocate, h0]
    · simp [AlignedSystem.afterAllocate, AlignedSystem.blocks, HeapSystem.afterAllocate, h0]
  rw [← hblocks] at hinv
  by_cases h0 : ret = 0
  · simp only [AlignedSystem.afterAllocate, h0, if_true] at hinv ⊢
    exact ⟨hinv, h.inside, h.power, h.fits⟩
  · simp only [AlignedSystem.afterAllocate, h0, if_false] at hinv ⊢
    have hlt : ret + HeapBase.underlyingSize size (2^k) < 2^64 := hinv.block_lt List.mem_cons_self
    have hnew := alignedAnswer_inside hk hh hlt
    refine ⟨hinv, ?_, ?_, ?_⟩
    · refine List.forall_mem_cons.mpr ⟨hnew.1, h.inside⟩
    · exact List.forall_mem_cons.mpr ⟨⟨k, hk, rfl⟩, h.power⟩
    · exact List.forall_mem_cons.mpr ⟨hnew.2, h.fits⟩

theorem deallocate_ok (h : AlignedInv H sys g) (hdirect : H.concurrency ≠ .threadLocal) (hx : x ∈ sys.live)
    (hh : sys.Harmless (.deallocate x)) :
    ∃ sys' g', sys.perform H (.deallocate x) = some sys' ∧ AlignedInv H sys' g' := by
  obtain ⟨s', mem', g', he, _, hinv⟩ := h.blocks.deallocate_through hdirect (mem_blocks hx) (h.frees hx hh)
  have hperm : (sys.blocks.live.erase x.block).Perm ((sys.live.erase x).map AlignedGrant.block) :=
    List.Perm.cons_inv ((List.perm_cons_erase (mem_blocks hx)).symm.trans
      ((List.perm_cons_erase hx).map AlignedGrant.block))
  refine ⟨_, g', Option.map_eq_some_iff.mpr ⟨_, he, rfl⟩, hinv.perm hperm, ?_, ?_, ?_⟩
  · exact fun y hy => h.inside y (List.mem_of_mem_erase hy)
  · exact fun y hy => h.power y (List.mem_of_mem_erase hy)
  · exact fun y hy => h.fits y (List.mem_of_mem_erase hy)

theorem store_ok {address : Nat} (h : AlignedInv H sys g) (hx : x ∈ sys.live) (hlo : x.ptr ≤ address)
    (hhi : address < x.ptr + x.size) (value : UInt8) :
    AlignedInv H { sys with memory.bytes := Function.update sys.memory.bytes address value } g := by
  have hin := h.inside x hx
  exact ⟨h.blocks.store_ok (mem_blocks hx) (by omega) (by omega) value, h.inside, h.power, h.fits⟩

theorem perform_ok (h : AlignedInv H sys g) (hdirect : H.concurrency ≠ .threadLocal)
    (ha : sys.Allowed action) (hh : sys.Harmless action) :
    ∃ sys' g', sys.perform H action = some sys' ∧ AlignedInv H sys' g' := by
  cases action with
  | allocateAligned size alignment arena => exact h.allocate_ok hdirect ha hh
  | deallocate x => exact h.deallocate_ok hdirect ha hh
  | store address value =>
    obtain ⟨x, hx, hlo, hhi⟩ := ha
    exact ⟨_, g, rfl, h.store_ok hx hlo hhi value⟩

theorem apart (h : AlignedInv H sys g) : sys.live.Pairwise fun x y =>
    x.ptr + x.size ≤ y.ptr ∨ y.ptr + y.size ≤ x.ptr := by
  refine (List.pairwise_map.mp h.blocks.apart).imp_of_mem fun {x y} hx hy hxy => ?_
  have hinx := h.inside x hx
  have hiny := h.inside y hy
  simp only [Grant.Avoids] at hxy
  omega

end AlignedInv

theorem AlignedReachable.inv (h : AlignedReachable H sys) (hdirect : H.concurrency ≠ .threadLocal) :
    ∃ g, AlignedInv H sys g := by
  induction h with
  | start h hlive =>
    obtain ⟨g, hinv⟩ := h.inv hdirect
    refine ⟨g, ⟨?_, by simp, by simp, by simp⟩⟩
    simp only [AlignedSystem.blocks, List.map_nil, ← hlive]
    exact hinv
  | step _ ha hh hp ih =>
    obtain ⟨g, hinv⟩ := ih
    obtain ⟨sys', g', he, hinv'⟩ := hinv.perform_ok hdirect ha hh
    rw [hp] at he
    cases he
    exact ⟨g', hinv'⟩

def AlignedSystem.requests (H : HeapType) : List (Nat × Nat) → AlignedSystem → Option AlignedSystem
  | [], sys => some sys
  | (size, alignment) :: rest, sys =>
    (sys.perform H (.allocateAligned size alignment refusingArena)).bind (requests H rest)

theorem AlignedReachable.requests {sizes : List (Nat × Nat)} (h : AlignedReachable H sys)
    (hpower : ∀ r ∈ sizes, (∃ k < 64, r.2 = 2^k) ∧ r.1 + r.2 < 2^64)
    (hp : sys.requests H sizes = some sys') : AlignedReachable H sys' := by
  induction sizes generalizing sys with
  | nil =>
    cases hp
    exact h
  | cons r rest ih =>
    obtain ⟨sys₁, h₁, h₂⟩ := Option.bind_eq_some_iff.mp hp
    obtain ⟨hr, hrest⟩ := List.forall_mem_cons.mp hpower
    have ha : sys.Allowed (.allocateAligned r.1 r.2 refusingArena) := ⟨hr.1, fun n hn => absurd rfl hn⟩
    exact ih (h.step ha (.inr hr.2) h₁) hrest h₂

end
end Metamalloc.Heaps
