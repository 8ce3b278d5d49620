import Mathlib.Order.Bounds.Basic
import Metamalloc.Pages.AnySizeLaws

/-! First fit, as a rule on the list of free blocks, and the any-size page that follows it. -/
namespace Metamalloc.Pages.LogicalPageAnySize
open Library.Word64 Library.ByteMemory Library.LinkedList Library.Tiling

/-- The least number of bytes that puts the payload behind a 16-byte header on a multiple of 16. -/
def LeastPadding (address padding : Nat) : Prop := IsLeast {k | 16 ∣ address + 16 + k} padding

/-- The bytes a request takes at a node with this padding. -/
def neededSize (size padding : Nat) : Nat := max size 16 + 16 + padding

/-- The free block can serve the request. -/
def CanServe (size : Nat) (b : Block) : Prop :=
  ∃ padding, LeastPadding b.start padding ∧ neededSize size padding ≤ b.size

/-- A request is served from the first block that can serve it, which gives way to its remainder. -/
def TakesFirstFit (size : Nat) (free : List Block) (ptr : Nat) (q : Page) : Prop :=
  ∃ pre b post padding rest, free = pre ++ b :: post ∧ (∀ c ∈ pre, ¬ CanServe size c) ∧
    LeastPadding b.start padding ∧ neededSize size padding ≤ b.size ∧ ptr = b.start + padding + 16 ∧
    FreeList q.bytes q.header.head (pre ++ (rest ++ post)) ∧
    (16 ≤ b.size - neededSize size padding ∧
        rest = [⟨b.start + neededSize size padding, b.size - neededSize size padding⟩] ∧
        liveBlock q.bytes ptr = ⟨b.start, neededSize size padding⟩ ∨
      b.size - neededSize size padding < 16 ∧ rest = [] ∧ liveBlock q.bytes ptr = b)

/-- The answer of a page with these free blocks to a request. -/
structure FirstFit (size : Nat) (free : List Block) (p : Page) (ptr : Nat) (q : Page) : Prop where
  null_iff : ptr = 0 ↔ ∀ b ∈ free, ¬ CanServe size b
  unchanged : ptr = 0 → q = p
  takes : ptr ≠ 0 → TakesFirstFit size free ptr q

section
variable {p : Page} {free : List Block} {taken : List TakenBlock} {size a k : Nat} {b : Block}

theorem calculatePaddingNeeded_least (h : a + 16 < 2^64) :
    LeastPadding a (calculatePaddingNeeded a minAlignmentSize) := by
  have hmod := calculatePaddingNeeded_mod h
  have hlt := calculatePaddingNeeded_lt a
  refine ⟨?_, fun k hk => ?_⟩
  · rw [Set.mem_ofPred_eq]
    omega
  · rw [Set.mem_ofPred_eq] at hk
    omega

/-- The search of the code looks for the blocks the rule allows. -/
theorem canServe_iff (h : b.start + 16 < 2^64) : CanServe size b ↔ Fits (max size 16) b := by
  have hleast := calculatePaddingNeeded_least h
  constructor
  · rintro ⟨padding, hpadding, hle⟩
    rwa [hpadding.unique hleast] at hle
  · intro hfits
    exact ⟨_, hleast, hfits⟩

theorem Represents.canServe_iff (h : Represents p free taken) (hb : b ∈ free) :
    CanServe size b ↔ Fits (max size 16) b := by
  have hin := h.free_inside hb
  have hfits := h.node_fits b hb
  have hbound := h.bound
  exact LogicalPageAnySize.canServe_iff (by omega)

theorem Represents.firstFit (h : Represents p free taken) (hs : size + 32 < 2^64) :
    ∃ ptr q, allocate size p = some (ptr, q) ∧ FirstFit size free p ptr q := by
  rcases h.allocate_spec hs with ⟨he, hno⟩ |
    ⟨pre, b, post, rest, q, y, rfl, hfit, hno, he, hcarved, hstart, hpadding, -, hq, -⟩
  · refine ⟨0, p, he, ?_, fun _ => rfl, fun h0 => absurd rfl h0⟩
    refine ⟨fun _ b hb => ?_, fun _ => rfl⟩
    rw [h.canServe_iff hb]
    exact hno b hb
  · have hb : b ∈ pre ++ b :: post := by simp
    have hne : y.ptr ≠ 0 := Nat.succ_ne_zero _
    have hserves := (h.canServe_iff hb).mpr hfit
    refine ⟨y.ptr, q, he, ⟨fun h0 => absurd h0 hne, fun hnone => absurd hserves (hnone b hb)⟩,
      fun h0 => absurd h0 hne, fun _ => ⟨pre, b, post, y.padding, rest, rfl, ?_, ?_, ?_, ?_, hq.freeList, ?_⟩⟩
    · intro c hc
      rw [h.canServe_iff (List.mem_append_left _ hc)]
      exact hno c hc
    · have hin := h.free_inside hb
      have hbound := h.bound
      have h16 := h.node_fits b hb
      rw [hpadding]
      exact calculatePaddingNeeded_least (by omega)
    · rw [hpadding]
      exact hfit
    · rw [TakenBlock.ptr, hstart]
    · have hlive := hq.liveBlock_eq List.mem_cons_self
      rw [TakenBlock.block, hstart] at hlive
      rcases hcarved with ⟨h16, htotal, hrest⟩ | ⟨h16, htotal, hrest⟩
      · refine .inl ⟨h16, hrest, ?_⟩
        rw [hlive, htotal]
        rfl
      · refine .inr ⟨h16, hrest, ?_⟩
        rw [hlive, htotal]

end

/-- In every state of every run, a request that the segment admits is answered by first fit on the
blocks of the free list. -/
theorem allocate_firstFit {policy : CoalescePolicy} {s : State} {size : Nat} (h : Reachable policy s)
    (hs : size ≤ s.page.header.logicalPageSize) :
    ∃ free ptr q, FreeList s.page.bytes s.page.header.head free ∧ (∀ b ∈ free, b.start ≠ 0) ∧
      allocate size s.page = some (ptr, q) ∧ FirstFit size free s.page ptr q := by
  have hsize := h.sound.request_lt hs
  obtain ⟨⟨free, taken, hr, -⟩, -⟩ := h.sound
  obtain ⟨ptr, q, he, hfirst⟩ := hr.firstFit hsize
  exact ⟨free, ptr, q, hr.freeList, hr.placed.ne_zero, he, hfirst⟩

/-- Behind two allocations the rest of the page is one free block. -/
theorem allocate_firstFit_behind_two : ∃ (s : State) (free : List Block) (ptr : Nat) (q : Page),
    s.live = [⟨4240, 200⟩, ⟨4112, 100⟩] ∧ FreeList s.page.bytes s.page.header.head free ∧
      allocate 100 s.page = some (ptr, q) ∧ FirstFit 100 free s.page ptr q := by
  obtain ⟨s, hr, hlive, hused⟩ := exists_reachable_of_two
  have hsize : 100 ≤ s.page.header.logicalPageSize := by
    obtain ⟨⟨free, taken, hrep, -⟩, -⟩ := hr.sound
    have := hrep.size_eq
    have := hrep.used
    omega
  obtain ⟨free, ptr, q, hfree, -, he, hfirst⟩ := allocate_firstFit hr hsize
  exact ⟨s, free, ptr, q, hlive, hfree, he, hfirst⟩

end Metamalloc.Pages.LogicalPageAnySize
