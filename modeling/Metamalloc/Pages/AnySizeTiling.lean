import Mathlib.Algebra.Order.BigOperators.Group.List
import Mathlib.Algebra.Ring.Nat
import Metamalloc.Pages.AnySizeFreeList

/-! Free and allocated blocks share out the buffer of an any-size page.
The layout is abstract; `Represents` ties it to the header and the bytes. -/
namespace Metamalloc.Pages.LogicalPageAnySize
open Library.Word64 Library.ByteMemory Library.LinkedList Library.Tiling

/-- An allocated block: padding, a 16-byte header, then the payload. -/
structure TakenBlock where
  start : Nat
  padding : Nat
  size : Nat
  payload : Nat

namespace TakenBlock
def block (y : TakenBlock) : Block := ⟨y.start, y.size⟩
def header (y : TakenBlock) : Nat := y.start + y.padding
def ptr (y : TakenBlock) : Nat := y.start + y.padding + 16
def allocation (y : TakenBlock) : Allocation := ⟨y.ptr, y.payload⟩
end TakenBlock

structure Represents (p : Page) (free : List Block) (taken : List TakenBlock) : Prop where
  freeList : FreeList p.bytes p.header.head free
  stored : ∀ y ∈ taken, getPaddingSize p.bytes y.header = y.padding ∧
    getBlockSize p.bytes y.header = y.size
  tiles : Tiles (free ++ taken.map TakenBlock.block) p.header.logicalPageStartAddress
    p.header.bufferEnd
  node_fits : ∀ b ∈ free, 16 ≤ b.size
  fits : ∀ y ∈ taken, y.padding + 16 + y.payload ≤ y.size ∧ 16 ≤ y.payload ∧ y.ptr % 16 = 0
  used : p.header.usedSize = (taken.map TakenBlock.size).sum
  start_pos : 0 < p.header.logicalPageStartAddress
  size_pos : 16 < p.header.logicalPageSize
  bound : p.header.bufferEnd < 2^64

/-- The byte is outside the buffer or belongs to one of the taken blocks. -/
def Foreign (p : Page) (taken : List TakenBlock) (x : Nat) : Prop :=
  (x < p.header.logicalPageStartAddress ∨ p.header.bufferEnd ≤ x) ∨ ∃ y ∈ taken, y.block.Holds x

/-- An operation on the free store writes no foreign byte. -/
structure Untouched (p q : Page) (taken : List TakenBlock) : Prop where
  frame : p.header.SameFrame q.header
  bytes : ∀ x, Foreign p taken x → q.bytes x = p.bytes x

section
variable {p q r : Page} {free free' pre post blocks : List Block} {taken : List TakenBlock}
  {y : TakenBlock} {b c : Block} {size ptr : Nat}

theorem Untouched.bufferEnd (h : Untouched p q taken) :
    q.header.bufferEnd = p.header.bufferEnd := by
  simp only [LogicalPageHeader.bufferEnd, h.frame.start, h.frame.size]

theorem Untouched.refl (p : Page) (taken : List TakenBlock) : Untouched p p taken :=
  ⟨.refl _, fun _ _ => rfl⟩

theorem Untouched.trans (h : Untouched p q taken) (h' : Untouched q r taken) :
    Untouched p r taken := by
  refine ⟨h.frame.trans h'.frame, fun x hx => ?_⟩
  have hx' : Foreign q taken x := by
    simpa only [Foreign, h.frame.start, h.bufferEnd] using hx
  exact (h'.bytes x hx').trans (h.bytes x hx)

/-- A tiling whose first blocks can hold a node places the nodes apart. -/
theorem placed_of_tiles {lo hi : Nat} (ht : Tiles (free ++ blocks) lo hi)
    (hn : ∀ b ∈ free, 16 ≤ b.size) (hlo : 0 < lo) (hhi : hi < 2^64) : Placed free := by
  refine ⟨fun b hb => ?_, fun b hb => ?_, ?_⟩
  · have := (ht.inside (List.mem_append_left _ hb)).1
    omega
  · have := (ht.inside (List.mem_append_left _ hb)).2
    omega
  · refine (List.pairwise_append.mp ht.apart).1.imp_of_mem fun {b c} hb hc h => ?_
    have h1 := hn b hb
    have h2 := hn c hc
    simp only [Block.Apart, NodesApart] at h ⊢
    omega

namespace Represents

theorem placed (h : Represents p free taken) : Placed free :=
  placed_of_tiles h.tiles h.node_fits h.start_pos h.bound

theorem size_eq (h : Represents p free taken) :
    (free.map Block.size).sum + p.header.usedSize = p.header.logicalPageSize := by
  have hs := h.tiles.sum_size
  rw [List.map_append, List.sum_append, List.map_map] at hs
  rw [h.used]
  simp only [LogicalPageHeader.bufferEnd, Nat.add_sub_cancel_left] at hs
  exact hs

theorem length_lt (h : Represents p free taken) : free.length < walkFuel p := by
  have hs := h.size_eq
  have hp := h.size_pos
  have hl : free.length * 16 ≤ (free.map Block.size).sum := by
    have hle := List.card_nsmul_le_sum (free.map Block.size) 16
    rw [List.length_map, nsmul_eq_mul, Nat.cast_id] at hle
    apply hle
    intro n hn
    obtain ⟨b, hb, rfl⟩ := List.mem_map.mp hn
    exact h.node_fits b hb
  simp only [walkFuel]
  omega

theorem free_inside (h : Represents p free taken) (hb : b ∈ free) :
    p.header.logicalPageStartAddress ≤ b.start ∧ b.start + b.size ≤ p.header.bufferEnd :=
  h.tiles.inside (List.mem_append_left _ hb)

theorem taken_inside (h : Represents p free taken) (hy : y ∈ taken) :
    p.header.logicalPageStartAddress ≤ y.start ∧ y.start + y.size ≤ p.header.bufferEnd :=
  h.tiles.inside (List.mem_append_right _ (List.mem_map_of_mem hy))

theorem free_apart_taken (h : Represents p free taken) (hb : b ∈ free) (hy : y ∈ taken) :
    b.Apart y.block :=
  (List.pairwise_append.mp h.tiles.apart).2.2 b hb _ (List.mem_map_of_mem hy)

theorem not_holds (h : Represents p free taken) {x : Nat} (hx : Foreign p taken x) (hb : b ∈ free) :
    ¬ b.Holds x := by
  intro hbx
  have hin := h.free_inside hb
  rcases hx with hx | ⟨y, hy, hx⟩
  · simp only [Block.Holds] at hbx
    omega
  · have ha := h.free_apart_taken hb hy
    simp only [Block.Apart, Block.Holds] at ha hbx hx
    omega

theorem stored_of_agree (h : Represents p free taken) (hy : y ∈ taken)
    (he : ∀ x, y.block.Holds x → q.bytes x = p.bytes x) :
    getPaddingSize q.bytes y.header = y.padding ∧ getBlockSize q.bytes y.header = y.size := by
  have hroom := (h.fits y hy).1
  have hag : AgreeOn p.bytes q.bytes y.header (y.header + 16) := by
    intro x hlo hhi
    simp only [TakenBlock.header] at hlo hhi
    refine he x ?_
    simp only [TakenBlock.block, Block.Holds]
    omega
  obtain ⟨h1, h2⟩ := h.stored y hy
  simp only [getPaddingSize, getBlockSize] at h1 h2 ⊢
  rw [(hag.mono le_rfl (by omega)).read64_eq, (hag.mono (by omega) (by omega)).read64_eq]
  exact ⟨h1, h2⟩

/-- A new free list over the same bytes, with the taken blocks left alone. -/
theorem of_untouched (h : Represents p free taken) (hu : Untouched p q taken)
    (hf : FreeList q.bytes q.header.head free')
    (ht : Tiles (free' ++ taken.map TakenBlock.block) p.header.logicalPageStartAddress
      p.header.bufferEnd)
    (hn : ∀ b ∈ free', 16 ≤ b.size) (hused : q.header.usedSize = p.header.usedSize) :
    Represents q free' taken where
  freeList := hf
  stored y hy := h.stored_of_agree hy fun x hx => hu.bytes x (.inr ⟨y, hy, hx⟩)
  tiles := by
    rw [hu.bufferEnd, hu.frame.start]
    exact ht
  node_fits := hn
  fits := h.fits
  used := hused.trans h.used
  start_pos := by
    rw [hu.frame.start]
    exact h.start_pos
  size_pos := by
    rw [hu.frame.size]
    exact h.size_pos
  bound := by
    rw [hu.bufferEnd]
    exact h.bound

end Represents
end
end Metamalloc.Pages.LogicalPageAnySize
