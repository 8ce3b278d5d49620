import Metamalloc.Segments.GrowthOutcome
import Metamalloc.Segments.NextFit

/-! What becomes of the sizes an any-size segment admits. The guard leaves out the page object,
a page in addition loses the header of the allocation: a fresh page is 16 bytes too small for the
largest sizes that pass. -/
namespace Metamalloc.Segments
open Library.Word64 Library.ByteMemory Library.LinkedList Library.Tiling Pages
open LogicalPageAnySize (Represents Fits getNextPointer getBlockSize calculatePaddingNeeded minAlignmentSize)

/-- A free node of the page is large enough for the payload, its header and the padding. -/
def HasRoom (mem : Memory) (a size : Nat) : Prop :=
  ∃ nodes, Path (getNextPointer mem.bytes) (mem.pages a).head nodes 0 ∧ 0 ∉ nodes ∧
    ∃ node ∈ nodes, max size 16 + 16 + calculatePaddingNeeded node minAlignmentSize ≤ getBlockSize mem.bytes node

/-- A page object and an allocation header leave this much of a page to one payload. -/
def FitsFreshPage (s : Segment) (size : Nat) : Prop := size + 80 ≤ s.logicalPageSize

/-- Every answer is the start of a page that ends before the address space does. -/
structure ArenaPages (arena : ArenaAnswers) (pageSize : Nat) : Prop where
  request : ∀ n, arena.request n ≠ 0 → arena.request n % 4096 = 0 ∧ arena.request n + pageSize < 2^64
  retry : ∀ n, arena.retry n ≠ 0 → arena.retry n % 4096 = 0 ∧ arena.retry n + pageSize < 2^64

/-- The page list, the page count and all page contents are as before. -/
structure Unchanged (s : Segment) (mem : Memory) (s' : Segment) (mem' : Memory) : Prop where
  list : s'.head = s.head ∧ s'.tail = s.tail
  count : s'.logicalPageCount = s.logicalPageCount
  pages : mem'.pages = mem.pages
  bytes : mem'.bytes = mem.bytes

/-- The page of this size has one free block, right behind its page object. -/
def EmptyPage (pageSize : Nat) (mem : Memory) (a : Nat) : Prop :=
  Represents (mem.page a) [⟨a + 64, pageSize - 64⟩] []

section
variable {concurrency : ConcurrencyPolicy} {policy : LogicalPageAnySize.CoalescePolicy}
  {recycling : PageRecyclingPolicy} {aligned : Bool} {s s' : Segment} {mem mem' : Memory}
  {arena : ArenaAnswers} {a b c n m t x P size : Nat} {l : List Nat} {p : Page}

theorem Represents.serves_iff {free : List Block} {taken : List LogicalPageAnySize.TakenBlock}
    (h : Represents p free taken) (hs : size + 32 < 2^64) :
    ∃ ret q, LogicalPageAnySize.allocate size p = some (ret, q) ∧ (ret ≠ 0 ↔ ∃ b ∈ free, Fits (max size 16) b) ∧
      (ret = 0 → q = p) := by
  rcases h.allocate_spec hs with ⟨he, hno⟩ | ⟨pre, b, post, rest, q, y, rfl, hfit, _, he, _⟩
  · refine ⟨0, p, he, ⟨fun h0 => absurd rfl h0, ?_⟩, fun _ => rfl⟩
    rintro ⟨b, hb, hfit⟩
    exact absurd hfit (hno b hb)
  · have hne : y.ptr ≠ 0 := by
      unfold LogicalPageAnySize.TakenBlock.ptr
      omega
    exact ⟨y.ptr, q, he, ⟨fun _ => ⟨b, by simp, hfit⟩, fun _ => hne⟩, fun h0 => absurd h0 hne⟩

theorem Represents.hasRoom_iff {free : List Block} {taken : List LogicalPageAnySize.TakenBlock}
    (h : Represents (mem.page a) free taken) : HasRoom mem a size ↔ ∃ b ∈ free, Fits (max size 16) b := by
  have hpath := h.freeList.path
  have h0 : 0 ∉ free.map Block.start := by
    intro h0
    obtain ⟨b, hb, he⟩ := List.mem_map.mp h0
    exact h.placed.ne_zero b hb he
  have hsize : ∀ b ∈ free, getBlockSize mem.bytes b.start = b.size := h.freeList.sizes
  constructor
  · rintro ⟨nodes, hnodes, hnull, node, hnode, hfit⟩
    obtain rfl := hnodes.unique hpath hnull h0
    obtain ⟨b, hb, rfl⟩ := List.mem_map.mp hnode
    rw [hsize b hb] at hfit
    exact ⟨b, hb, hfit⟩
  · rintro ⟨b, hb, hfit⟩
    refine ⟨_, hpath, h0, b.start, List.mem_map_of_mem hb, ?_⟩
    rw [hsize b hb]
    exact hfit

theorem Usable.serves_iff
    (h : Usable ⟨concurrency, LogicalPageAnySize.pageType policy, recycling, aligned⟩
      (LogicalPageAnySize.laws policy) s mem l) (hs : size ≤ s.maxObjectSize) (ha : a ∈ l) :
    serves ⟨concurrency, LogicalPageAnySize.pageType policy, recycling, aligned⟩ size mem a = true ↔
      HasRoom mem a size := by
  obtain ⟨out, free, taken, hrep, _⟩ := h.page a ha
  obtain ⟨ret, q, he, hiff, _⟩ := Represents.serves_iff hrep (h.size_lt hs)
  rw [Represents.hasRoom_iff hrep, ← hiff]
  have hserves : serves ⟨concurrency, LogicalPageAnySize.pageType policy, recycling, aligned⟩ size mem a =
      (ret != 0) := by
    unfold serves
    rw [show (LogicalPageAnySize.pageType policy).allocate size (mem.page a) = some (ret, q) from he]
  rw [hserves, bne_iff_ne]

theorem EmptyPage.of_same (h : EmptyPage P mem a) (hs : (mem.pages a).SameStore (mem'.pages a))
    (hbytes : AgreeOn mem.bytes mem'.bytes (a + 64) (a + 80)) : EmptyPage P mem' a := by
  obtain ⟨hhead, _, hused, hstart, hsize⟩ := hs
  have hend : (mem'.page a).header.bufferEnd = (mem.page a).header.bufferEnd := by
    simp only [LogicalPageHeader.bufferEnd, Memory.page, hstart, hsize]
  have hlist : LogicalPageAnySize.FreeList mem'.bytes (mem.pages a).head [⟨a + 64, P - 64⟩] := by
    refine h.freeList.frame fun b hb => ?_
    rw [List.mem_singleton.mp hb]
    exact hbytes
  refine ⟨hhead ▸ hlist, by simp, ?_, h.node_fits, by simp, hused.trans h.used, ?_, ?_, ?_⟩
  · rw [hend]
    exact hstart ▸ h.tiles
  · exact hstart ▸ h.start_pos
  · exact hsize ▸ h.size_pos
  · rw [hend]
    exact h.bound

theorem EmptyPage.linkAfter (h : EmptyPage P mem a) : EmptyPage P (Segment.linkAfter t x mem) a := by
  have hr : Relinked mem (Segment.linkAfter t x mem) := relinked_linkAfter
  obtain ⟨next, previous, he⟩ := hr.pages a
  refine h.of_same ?_ fun c _ _ => congrFun hr.bytes c
  rw [he]
  exact ⟨rfl, rfl, rfl, rfl, rfl⟩

theorem create_bytes {buffer sizeClass : Nat} {mem : Mem}
    (h : LogicalPageAnySize.create buffer size sizeClass mem = some p) (hx : x < buffer ∨ buffer + 16 ≤ x) :
    p.bytes x = mem x := by
  rw [LogicalPageAnySize.create_eq_some h]
  simp only [LogicalPageAnySize.insert, LogicalPageHeader.ofBuffer, if_true, ne_eq, not_true_eq_false, if_false,
    LogicalPageAnySize.clearNextPointer, LogicalPageAnySize.setBlockSize]
  rw [write64_apply (by omega), write64_apply (by omega), write64_apply (by omega)]

/-- Making a page leaves an empty page empty, be it the same one. -/
theorem EmptyPage.placePage (hsize : 64 < P) (ha : a % 4096 = 0) (hend : a + P < 2^64) (hx : x % 4096 = 0)
    (hlt : x < 2^64) (hp : LogicalPageAnySize.create (add64 x 64) (sub64 P 64) c mem.bytes = some p)
    (h : x = a ∨ EmptyPage P mem a) : EmptyPage P (mem.placePage x p) a := by
  rw [add64_of_lt (by omega), sub64_of_le (by omega) (by omega)] at hp
  by_cases hxa : x = a
  · subst hxa
    obtain ⟨hrep, _, _⟩ := LogicalPageAnySize.create_represents hp (by omega)
    refine hrep.congr ?_ fun _ _ _ _ => rfl
    rw [show (mem.placePage x p).pages x = p.header.markAsUsed from Memory.pages_setPage_self ..]
    exact LogicalPageHeader.sameStore_markAsUsed _
  · refine (h.resolve_left hxa).of_same ?_ fun y hlo hhi => create_bytes hp ?_
    · rw [show (mem.placePage x p).pages a = mem.pages a from Memory.pages_setPage_of_ne _ _ (Ne.symm hxa)]
      exact .refl _
    · omega

theorem EmptyPage.growRest {indices : List Nat} {last : Nat} (hg : s.logicalPageSize % 4096 = 0)
    (hsize : 64 < s.logicalPageSize) (ha : a % 4096 = 0) (hend : a + s.logicalPageSize < 2^64) (hb : b % 4096 = 0)
    (h : EmptyPage s.logicalPageSize mem a)
    (he : Segment.growRest ⟨concurrency, LogicalPageAnySize.pageType policy, recycling, aligned⟩ b indices t s mem =
      (some last, s', mem')) : EmptyPage s.logicalPageSize mem' a := by
  induction indices generalizing t s mem with
  | nil =>
    cases he
    exact h
  | cons i indices ih =>
    rw [Segment.growRest] at he
    split at he
    · cases he
    · rename_i s₁ mem₁ hcreate
      obtain ⟨p, hp, rfl, rfl⟩ := createNewLogicalPage_some hcreate
      refine ih (s := { s with logicalPageCount := add64 s.logicalPageCount 1 }) hg hsize hend
        (EmptyPage.linkAfter ?_) he
      refine EmptyPage.placePage hsize ha hend (add64_mod_granularity hb (mul64_mod_granularity hg)) ?_ hp (.inr h)
      unfold add64
      exact Nat.mod_lt _ (by decide)

theorem EmptyPage.grow {first : Nat} (hg : s.logicalPageSize % 4096 = 0) (hsize : 64 < s.logicalPageSize)
    (hb : b % 4096 = 0) (hend : b + s.logicalPageSize < 2^64) (hne : first ≠ 0)
    (he : Segment.grow ⟨concurrency, LogicalPageAnySize.pageType policy, recycling, aligned⟩ b n s mem =
      some (first, s', mem')) : EmptyPage s.logicalPageSize mem' b := by
  obtain ⟨-, h0, -⟩ | ⟨p, s₁, mem₁, last, s₂, hp, hconfig, -, hmem, hrest, hlast⟩ := grow_cases he
  · exact absurd h0 hne
  obtain ⟨-, h0, -⟩ | ⟨last, rfl, -⟩ := hlast
  · exact absurd h0 hne
  have hempty : EmptyPage s.logicalPageSize (mem.placePage b p) b :=
    EmptyPage.placePage hsize hb hend hb (by omega) hp (.inl rfl)
  have hpage : s₁.logicalPageSize = s.logicalPageSize := congrArg SegmentConfig.logicalPageSize hconfig
  rw [← hpage] at hg hsize hend hempty ⊢
  rcases hmem with rfl | rfl
  · exact EmptyPage.growRest hg hsize hb hend hb hempty hrest
  · exact EmptyPage.growRest hg hsize hb hend hb hempty.linkAfter hrest

/-- An empty page serves what it has room for behind its page object and the header. -/
theorem EmptyPage.allocate (h : EmptyPage P mem a) (ha : a % 4096 = 0) (hend : a + P < 2^64) (hP : 96 ≤ P)
    (hs : size + 32 < 2^64) :
    ∃ ret q, LogicalPageAnySize.allocate size (mem.page a) = some (ret, q) ∧ (ret ≠ 0 ↔ size + 80 ≤ P) := by
  obtain ⟨ret, q, he, hiff, _⟩ := Represents.serves_iff h hs
  have hpadding : calculatePaddingNeeded (a + 64) minAlignmentSize = 0 := by
    unfold calculatePaddingNeeded add64 minAlignmentSize LogicalPageAnySize.nodeSize
    dsimp only
    rw [if_neg]
    omega
  refine ⟨ret, q, he, hiff.trans ?_⟩
  unfold Fits
  constructor
  · rintro ⟨b, hb, hfit⟩
    obtain rfl := List.mem_singleton.mp hb
    rw [hpadding] at hfit
    dsimp only at hfit
    omega
  · intro hfits
    refine ⟨_, List.mem_singleton_self _, ?_⟩
    rw [hpadding]
    dsimp only
    omega

theorem ArenaPages.requestBuffer (h : ArenaPages arena P) (hne : Segment.requestBuffer arena s n m ≠ 0) :
    Segment.requestBuffer arena s n m % 4096 = 0 ∧ Segment.requestBuffer arena s n m + P < 2^64 := by
  unfold Segment.requestBuffer at *
  dsimp only at *
  split at hne
  · rename_i hretry
    rw [if_pos hretry]
    exact h.retry _ hne
  · rename_i hfirst
    rw [if_neg hfirst]
    exact h.request _ hne

theorem growAndAllocate_eq {T : SegmentType} {first ret : Nat}
    (hq : Segment.calculateQuantities T size s = some (n, m)) (hne : Segment.requestBuffer arena s n m ≠ 0)
    (hgrow : Segment.grow T (Segment.requestBuffer arena s n m) n s mem = some (first, s', mem'))
    (hfirst : first ≠ 0) (he : T.page.allocate size (mem'.page first) = some (ret, p)) :
    Segment.growAndAllocate T arena size s mem =
      some (ret, if ret ≠ 0 then { s' with lastUsed := first } else s', mem'.setPage first p) := by
  rw [Segment.growAndAllocate, hq]
  dsimp only
  rw [if_neg hne, hgrow]
  dsimp only
  rw [if_neg hfirst, he]

theorem Unchanged.refl (s : Segment) (mem : Memory) : Unchanged s mem s mem := ⟨⟨rfl, rfl⟩, rfl, rfl, rfl⟩

end

def anySizeType : SegmentType :=
  ⟨.singleThread, LogicalPageAnySize.pageType .coalesce, .immediate, true⟩

def oneAnySizePage : Option System :=
  (Segment.create anySizeType 12288 true { logicalPageSize := 4096, logicalPageCount := 1 } {}
    ⟨fun _ => 0, fun _ => {}, [], []⟩).map fun r => ⟨r.2.1, r.2.2, [], [], .idle⟩

end Metamalloc.Segments
