import Metamalloc.Heaps.HeapCreation

/-! Runs of a heap without a queue: its clients allocate, deallocate what they hold and
write to it, and the arena answers with fresh buffers or not at all. -/
namespace Metamalloc.Heaps
open Library.Word64 Library.ByteMemory Library.LinkedList Pages Segments

/-- An allocation a client holds: what it asked for, and the segment and the page that
served it. -/
structure Grant where
  ptr : Nat
  size : Nat
  segment : SegmentId
  page : Nat
  deriving DecidableEq

/-- The bytes a segment sets aside for a request. -/
def grantedSize : SegmentId → Nat → Nat
  | .small i, _ => binSizeClass i
  | .big, size => max size 16

def Grant.allocation (x : Grant) : Allocation := ⟨x.ptr, grantedSize x.segment x.size⟩

structure HeapSystem where
  heap : SimpleHeapPow2
  memory : Memory
  live : List Grant

inductive HeapAction where
  | allocate (size : Nat) (arena : ArenaAnswers)
  | deallocate (x : Grant)
  | store (address : Nat) (value : UInt8)

namespace HeapSystem
variable (H : HeapType)

/-- A segment that serves a request leaves the page it used as its last used one. -/
def afterAllocate (sys : HeapSystem) (size : Nat) : Nat × SimpleHeapPow2 × Memory → HeapSystem
  | (ret, heap, mem) =>
    let id := (SimpleHeapPow2.requestTarget size).1
    ⟨heap, mem, if ret = 0 then sys.live else ⟨ret, size, id, (heap.segment id).lastUsed⟩ :: sys.live⟩

def perform (sys : HeapSystem) : HeapAction → Option HeapSystem
  | .allocate size arena =>
    (SimpleHeapPow2.allocate H arena size sys.heap sys.memory).map (sys.afterAllocate size)
  | .deallocate x => (SimpleHeapPow2.deallocate H x.ptr sys.heap sys.memory).map fun (heap, mem) =>
      ⟨heap, mem, sys.live.erase x⟩
  | .store address value =>
    some { sys with memory.bytes := Function.update sys.memory.bytes address value }

def Lists (sys : HeapSystem) (id : SegmentId) (l : List Nat) : Prop :=
  Path sys.memory.getNext (sys.heap.segment id).head l 0 ∧ 0 ∉ l

def Mapped (sys : HeapSystem) (c : Nat) : Prop :=
  ∃ id l, sys.Lists id l ∧ region (sys.heap.segment id).logicalPageSize l c

/-- The arena answers a request with a fresh buffer, aligned to the page size, or refuses. -/
def FreshAnswers (sys : HeapSystem) (arena : ArenaAnswers) : Prop :=
  ∀ n, arena.request n ≠ 0 →
    FreshFor sys.heap.smallObjectLogicalPageSize sys.Mapped (arena.request n) n

def Allowed (sys : HeapSystem) : HeapAction → Prop
  | .allocate _ arena => sys.FreshAnswers arena
  | .deallocate x => x ∈ sys.live
  | .store address _ => ∃ x ∈ sys.live, x.ptr ≤ address ∧ address < x.ptr + x.size

end HeapSystem

/-- The states of runs that begin with a successful creation. The buffer holds the pages of
all bins, and the segments grow by what they need. -/
inductive HeapReachable (H : HeapType) : HeapSystem → Prop
  | create {params : HeapCreationParams} {pageAlignment k : Nat} {request : Nat → Nat}
      {queueMemory : SegmentId → Bool} {heap : SimpleHeapPow2} {mem mem' : Memory}
      (hpower : params.smallObjectLogicalPageSize = 2^k)
      (hcoefficient : params.segmentGrowCoefficient.positive = false)
      (hbytes : heapBytes params < 2^64)
      (hfresh : request (heapBytes params) ≠ 0 → FreshFor params.smallObjectLogicalPageSize
        (fun _ => False) (request (heapBytes params)) (heapBytes params))
      (h : SimpleHeapPow2.create H params pageAlignment request queueMemory {} mem =
        some (true, heap, mem')) :
      HeapReachable H ⟨heap, mem', []⟩
  | step {sys sys' : HeapSystem} {action : HeapAction} (h : HeapReachable H sys)
      (ha : sys.Allowed action) (hp : sys.perform H action = some sys') : HeapReachable H sys'

abbrev liveOf (live : List Grant) : SegmentId → List Allocation :=
  liveAt Grant.segment Grant.allocation live

structure HeapSystemInv (H : HeapType) (sys : HeapSystem) (g : SegmentId → Ghost) : Prop where
  inv : HeapInv H sys.heap sys.memory (liveOf sys.live) g
  growCoefficient : ∀ id, (sys.heap.segment id).growCoefficient.positive = false
  taken : ∀ x ∈ sys.live, x.allocation ∈ (g x.segment).owned x.page ∧ x.size ≤ x.allocation.size

section
variable {H : HeapType} {sys sys' : HeapSystem} {g : SegmentId → Ghost} {x y : Grant}
  {live : List Grant} {id : SegmentId} {size ret : Nat} {arena : ArenaAnswers} {action : HeapAction}

theorem granted_eq {heap : SimpleHeapPow2} (h : HeapConfig heap) (id : SegmentId) (size : Nat) :
    (H.laws id).granted (heap.segment id).sizeClass size = grantedSize id size := by
  cases id with
  | small i => exact h.sizeClass i
  | big => rfl

theorem liveOf_granted {heap : SimpleHeapPow2} (h : HeapConfig heap) {adjusted : Nat} (page : Nat)
    (hadjusted : grantedSize id adjusted = grantedSize id size) :
    Function.update (liveOf live) id (System.grant (H.segmentType id) (H.laws id)
      (heap.segment id).sizeClass adjusted ret (liveOf live id)) =
    liveOf (if ret = 0 then live else ⟨ret, size, id, page⟩ :: live) := by
  refine liveAt_granted (x := (⟨ret, size, id, page⟩ : Grant)) fun _ => ?_
  rw [granted_eq h id adjusted, hadjusted]
  rfl

/-- The dispatch of `allocate`: the smallest size class that holds the request, or the big bin. -/
theorem requestTarget_cases (size : Nat) :
    (∃ i, SimpleHeapPow2.requestTarget size = (.small i, binSizeClass i) ∧ size ≤ binSizeClass i) ∨
      SimpleHeapPow2.requestTarget size = (.big, size) ∧ size ≠ 0 := by
  by_cases h : size ≤ largestSmallObjectSizeClass
  · obtain ⟨i, hi, hle⟩ := adjustSizeForSmallObjectBin_spec h
    refine .inl ⟨i, ?_, hle⟩
    simp only [SimpleHeapPow2.requestTarget, if_pos h, hi, getPow2BinIndexFromSize_binSizeClass]
  · refine .inr ⟨?_, ?_⟩
    · simp only [SimpleHeapPow2.requestTarget, if_neg h]
    · rintro rfl
      exact h (Nat.zero_le _)

/-- A request as the segment sees it. -/
structure Request (id : SegmentId) (size adjusted : Nat) : Prop where
  fits : size ≤ grantedSize id size
  same : grantedSize id adjusted = grantedSize id size
  ne_zero : adjusted ≠ 0
  class_le : ∀ i, id = .small i → adjusted ≤ binSizeClass i

theorem requestTarget_spec (size : Nat) :
    Request (SimpleHeapPow2.requestTarget size).1 size (SimpleHeapPow2.requestTarget size).2 := by
  rcases requestTarget_cases size with ⟨i, h, hle⟩ | ⟨h, h0⟩
  · rw [h]
    refine ⟨hle, rfl, Nat.ne_of_gt (Nat.two_pow_pos _), ?_⟩
    intro j hj
    cases hj
    exact le_rfl
  · rw [h]
    refine ⟨le_max_left .., rfl, h0, ?_⟩
    intro j hj
    cases hj

namespace HeapSystemInv

theorem segmentInv (h : HeapSystemInv H sys g) (id : SegmentId) :
    SegmentInv (H.segmentType id) (H.laws id) (sys.heap.segment id) sys.memory (g id).pages (g id).owned :=
  h.inv.segmentInv id

theorem lists (h : HeapSystemInv H sys g) (id : SegmentId) : sys.Lists id (g id).pages :=
  (h.inv.system id).lists

theorem fits_quantities (h : HeapSystemInv H sys g) (hsize : ∀ i, id = .small i → size ≤ binSizeClass i)
    (hany : (H.segmentType id).page.supportsAnySize = false) :
    size ≤ max (sys.heap.segment id).sizeClass
      ((sys.heap.segment id).logicalPageSize - (H.segmentType id).page.objectSize) := by
  refine le_max_of_le_left ?_
  cases id with
  | small i => exact (hsize i rfl).trans (h.inv.config.sizeClass i).ge
  | big => cases hany

theorem arenaServes (h : HeapSystemInv H sys g) (harena : sys.FreshAnswers arena)
    (hsize : ∀ i, id = .small i → size ≤ binSizeClass i) :
    ArenaServes (H.segmentType id) (sys.heap.segment id) arena size
      sys.heap.smallObjectLogicalPageSize sys.Mapped := by
  have hword := (h.segmentInv id).geometry.word
  refine ⟨fun n m hq h0 => ?_, fun n m hq hlt _ => ?_⟩
  · obtain ⟨rfl, rfl⟩ := calculateQuantities_eq_one (h.growCoefficient id) (h.fits_quantities hsize) hq
    have hmul : mul64 (sys.heap.segment id).logicalPageSize 1 = (sys.heap.segment id).logicalPageSize := by
      rw [mul64_of_lt (by omega), Nat.mul_one]
    rw [hmul] at h0 ⊢
    rw [Nat.one_mul]
    exact harena _ h0
  · obtain ⟨rfl, rfl⟩ := calculateQuantities_eq_one (h.growCoefficient id) (h.fits_quantities hsize) hq
    exact absurd hlt (Nat.lt_irrefl 1)

theorem mapped (h : HeapSystemInv H sys g) {c : Nat}
    (hc : Segments.Mapped (fun _ => True) sys.heap.segment g c) : sys.Mapped c := by
  obtain ⟨id, _, hc⟩ := hc
  exact ⟨id, _, h.lists id, hc⟩

theorem allocate_ok (h : HeapSystemInv H sys g) (hdirect : H.concurrency ≠ .threadLocal)
    (harena : sys.FreshAnswers arena) :
    ∃ r g', SimpleHeapPow2.allocate H arena size sys.heap sys.memory = some r ∧
      HeapSystemInv H (sys.afterAllocate size r) g' := by
  obtain ⟨hfits, hadjusted, h0, hclass⟩ := requestTarget_spec size
  simp only [SimpleHeapPow2.allocate, HeapSystem.afterAllocate]
  generalize (SimpleHeapPow2.requestTarget size).1 = id at hfits hadjusted hclass ⊢
  generalize (SimpleHeapPow2.requestTarget size).2 = adjusted at hadjusted h0 hclass ⊢
  have hpolicy : (H.segmentType id).concurrency ≠ .threadLocal := by cases id <;> exact hdirect
  obtain ⟨ret, s', mem', g', he, hfamily, hconfig, ho, -⟩ := h.inv.family.allocate_direct trivial hpolicy
    (fun _ => h0) (h.arenaServes harena hclass) (fun c hc => h.mapped hc) h.inv.granularity
    (h.inv.aligned_dvd id)
  refine ⟨(ret, sys.heap.setSegment id s', mem'), Function.update g id g', ?_, ?_⟩
  · rw [he, Option.map_some]
  · have hgranted : (H.laws id).granted (sys.heap.segment id).sizeClass adjusted = grantedSize id size :=
      (granted_eq h.inv.config id adjusted).trans hadjusted
    refine ⟨⟨h.inv.config.setSegment hconfig, ?_⟩, fun id' => ?_, fun x hx => ?_⟩
    · rw [segment_setSegment, ← liveOf_granted h.inv.config _ hadjusted]
      exact hfamily
    · rw [segment_setSegment]
      by_cases hid : id' = id
      · subst hid
        rw [Function.update_self, congrArg SegmentConfig.growCoefficient hconfig]
        exact h.growCoefficient id'
      · rw [Function.update_of_ne hid]
        exact h.growCoefficient id'
    · have hold : ∀ y ∈ sys.live, y.allocation ∈ (Function.update g id g' y.segment).owned y.page ∧
          y.size ≤ y.allocation.size := by
        intro y hy
        obtain ⟨h1, h2⟩ := h.taken y hy
        refine ⟨?_, h2⟩
        by_cases hid : y.segment = id
        · rw [hid, Function.update_self]
          exact ho.mem_owned (hid ▸ h1)
        · rwa [Function.update_of_ne hid]
      by_cases hret : ret = 0
      · simp only [hret, if_true] at hx
        exact hold x hx
      · simp only [hret, if_false, SimpleHeapPow2.segment_setSegment_self] at hx
        rcases List.mem_cons.mp hx with rfl | hx
        · have htaken := ho.taken hret
          rw [hgranted] at htaken
          refine ⟨?_, hfits⟩
          dsimp only
          rw [Function.update_self]
          exact htaken
        · exact hold x hx

theorem not_mem_erase (h : HeapSystemInv H sys g) (hx : x ∈ sys.live) :
    x.allocation ∉ liveOf (sys.live.erase x) x.segment := by
  intro hmem
  have hperm : (liveOf sys.live x.segment).Perm
      (x.allocation :: liveOf (sys.live.erase x) x.segment) := liveAt_perm_cons hx
  have hlive : (liveOf sys.live x.segment).count x.allocation ≤ 1 := by
    have hshared := (h.inv.system x.segment).shared x.allocation
    have hnodup : ((g x.segment).pages.flatMap (g x.segment).owned).Nodup :=
      (h.segmentInv x.segment).out_nodup.of_map _
    have hone := List.nodup_iff_count_le_one.mp hnodup x.allocation
    simp only [atRest] at hshared
    omega
  rw [hperm.count_eq, List.count_cons_self] at hlive
  have hpos := List.count_pos_iff.mpr hmem
  omega

/-- A live allocation goes back to the segment and the page it was taken from, through
whatever pointer its block is found. -/
theorem deallocate_through {ptr : Nat} (h : HeapSystemInv H sys g) (hdirect : H.concurrency ≠ .threadLocal)
    (hx : x ∈ sys.live)
    (hfrees : Frees (H.laws x.segment) (sys.heap.segment x.segment) sys.memory x.page x.allocation ptr) :
    ∃ s' mem' g', SimpleHeapPow2.deallocate H ptr sys.heap sys.memory =
        some (sys.heap.setSegment x.segment s', mem') ∧
      Segment.deallocateOnPage (H.segmentType x.segment) x.page ptr (sys.heap.segment x.segment)
        sys.memory = some (s', mem') ∧
      HeapSystemInv H ⟨sys.heap.setSegment x.segment s', mem', sys.live.erase x⟩ g' := by
  have hxa := (h.taken x hx).1
  have ha := (h.segmentInv x.segment).mem_of_owned hxa
  have hlo := hfrees.behind
  have hpolicy : (H.segmentType x.segment).concurrency ≠ .threadLocal := by
    cases x.segment <;> exact hdirect
  obtain ⟨s', mem', g', rest, he, hpage, hfamily, ⟨hconfig, _, _⟩, hp, howned, -⟩ :=
    h.inv.family.deallocate_direct trivial hpolicy (mem_liveAt hx) hxa hfrees
  have htarget : SimpleHeapPow2.pointerTarget H ptr sys.heap sys.memory = some x.segment :=
    h.inv.pointerTarget_eq hdirect ha (by omega) hfrees.onPage
  refine ⟨s', mem', Function.update g x.segment g', deallocate_of_target htarget he, hpage,
    ⟨h.inv.config.setSegment hconfig, ?_⟩, fun id' => ?_, fun y hy => ?_⟩
  · rw [segment_setSegment]
    exact hfamily.perm (liveAt_erase hx)
  · rw [segment_setSegment]
    by_cases hid : id' = x.segment
    · subst hid
      rw [Function.update_self, congrArg SegmentConfig.growCoefficient hconfig]
      exact h.growCoefficient x.segment
    · rw [Function.update_of_ne hid]
      exact h.growCoefficient id'
  · obtain ⟨h1, h2⟩ := h.taken y (List.mem_of_mem_erase hy)
    refine ⟨?_, h2⟩
    by_cases hid : y.segment = x.segment
    · rw [hid, Function.update_self, howned]
      by_cases hpage : y.page = x.page
      · rw [hpage, Function.update_self]
        have hy' : y.allocation ∈ x.allocation :: rest := hp.mem_iff.mp (by rw [← hid, ← hpage]; exact h1)
        refine (List.mem_cons.mp hy').resolve_left fun heq => h.not_mem_erase hx ?_
        rw [← heq, ← hid]
        exact mem_liveAt hy
      · rw [Function.update_of_ne hpage, ← hid]
        exact h1
    · rwa [Function.update_of_ne hid]

theorem deallocate_ok (h : HeapSystemInv H sys g) (hdirect : H.concurrency ≠ .threadLocal)
    (hx : x ∈ sys.live) :
    ∃ s' mem' g', SimpleHeapPow2.deallocate H x.ptr sys.heap sys.memory =
        some (sys.heap.setSegment x.segment s', mem') ∧
      Segment.deallocateOnPage (H.segmentType x.segment) x.page x.ptr (sys.heap.segment x.segment)
        sys.memory = some (s', mem') ∧
      HeapSystemInv H ⟨sys.heap.setSegment x.segment s', mem', sys.live.erase x⟩ g' :=
  h.deallocate_through hdirect hx ((h.segmentInv x.segment).frees_self (h.taken x hx).1)

theorem store_ok {address : Nat} (h : HeapSystemInv H sys g) (hx : x ∈ sys.live)
    (hlo : x.ptr ≤ address) (hhi : address < x.ptr + x.size) (value : UInt8) :
    HeapSystemInv H { sys with memory.bytes := Function.update sys.memory.bytes address value } g := by
  have hle := (h.taken x hx).2
  have hholds : x.allocation.Holds address := by
    simp only [Allocation.Holds, Grant.allocation] at hle ⊢
    omega
  exact ⟨⟨h.inv.config, h.inv.family.store trivial (mem_liveAt hx) hholds value⟩, h.growCoefficient, h.taken⟩

theorem perform_ok (h : HeapSystemInv H sys g) (hdirect : H.concurrency ≠ .threadLocal)
    (ha : sys.Allowed action) : ∃ sys' g', sys.perform H action = some sys' ∧ HeapSystemInv H sys' g' := by
  cases action with
  | allocate size arena =>
    obtain ⟨r, g', he, hinv⟩ := h.allocate_ok hdirect ha
    refine ⟨_, g', ?_, hinv⟩
    rw [HeapSystem.perform, he, Option.map_some]
  | deallocate x =>
    obtain ⟨s', mem', g', he, _, hinv⟩ := h.deallocate_ok hdirect ha
    refine ⟨_, g', ?_, hinv⟩
    rw [HeapSystem.perform, he, Option.map_some]
  | store address value =>
    obtain ⟨x, hx, hlo, hhi⟩ := ha
    exact ⟨_, g, rfl, h.store_ok hx hlo hhi value⟩

end HeapSystemInv

theorem HeapReachable.inv (h : HeapReachable H sys) (hdirect : H.concurrency ≠ .threadLocal) :
    ∃ g, HeapSystemInv H sys g := by
  induction h with
  | create hpower hcoefficient hbytes hfresh hc =>
    have houtcome := create_heap_spec hpower hbytes
      (fun hb => ⟨(hfresh hb).aligned, (hfresh hb).inside⟩) hc
    obtain ⟨_, g, hcreated⟩ := houtcome.created rfl
    refine ⟨g, hcreated.inv, fun id => ?_, fun x hx => absurd hx List.not_mem_nil⟩
    cases id with
    | small i => exact (congrArg GrowCoefficient.positive (hcreated.growCoefficient i)).trans hcoefficient
    | big => exact congrArg GrowCoefficient.positive hcreated.bigGrowCoefficient
  | step _ ha hp ih =>
    obtain ⟨g, hinv⟩ := ih
    obtain ⟨sys', g', he, hinv'⟩ := hinv.perform_ok hdirect ha
    rw [hp] at he
    cases he
    exact ⟨g', hinv'⟩

/-- The bytes a client asked for do not meet the `n` bytes from `a` on. -/
def Grant.Avoids (x : Grant) (a n : Nat) : Prop := x.ptr + x.size ≤ a ∨ a + n ≤ x.ptr

def HeapSystem.FreeNodes (sys : HeapSystem) (a : Nat) (nodes : List Nat) : Prop :=
  Path (read64 sys.memory.bytes) (sys.memory.pages a).head nodes 0 ∧ 0 ∉ nodes

structure HeapSafe (H : HeapType) (sys : HeapSystem) : Prop where
  aligned : ∀ x ∈ sys.live, x.ptr % 16 = 0
  apart : sys.live.Pairwise fun x y => x.Avoids y.ptr y.size
  pages : ∀ id, ∃ l, sys.Lists id l ∧ ∀ a ∈ l, ∃ nodes, sys.FreeNodes a nodes ∧
    ∀ x ∈ sys.live, x.Avoids a logicalPageHeaderSize ∧
      ∀ node ∈ nodes, x.Avoids node (H.segmentType id).page.nodeSize
  /-- `deallocate` works on the segment and on the page that `allocate` took the memory from: the
  page is released, or the memory is free there again. -/
  dispatch : ∀ x ∈ sys.live, ∃ s mem l, sys.Lists x.segment l ∧ x.page ∈ l ∧
    onPage (sys.heap.segment x.segment).logicalPageSize x.page x.ptr = true ∧
    SimpleHeapPow2.deallocate H x.ptr sys.heap sys.memory = some (sys.heap.setSegment x.segment s, mem) ∧
    Segment.deallocateOnPage (H.segmentType x.segment) x.page x.ptr (sys.heap.segment x.segment)
      sys.memory = some (s, mem) ∧
    (mem.released = (x.page, (sys.heap.segment x.segment).logicalPageSize) :: sys.memory.released ∨
      mem.released = sys.memory.released ∧
        BackInStore (H.laws x.segment) x.page x.ptr x.size sys.memory mem)
  progress : ∀ action, sys.Allowed action → (sys.perform H action).isSome

namespace HeapSystemInv

theorem granted_inside (h : HeapSystemInv H sys g) (hx : x ∈ sys.live) :
    x.page + logicalPageHeaderSize ≤ x.ptr ∧
      x.ptr + x.size ≤ x.page + (sys.heap.segment x.segment).logicalPageSize := by
  obtain ⟨howned, hle⟩ := h.taken x hx
  have hin := (h.segmentInv x.segment).owned_inside howned
  rw [(H.laws x.segment).objectSize_eq] at hin
  simp only [Grant.allocation] at hle hin
  omega

theorem avoids_other_page {a b n : Nat} (h : HeapSystemInv H sys g) (hx : x ∈ sys.live)
    (ha : a ∈ (g id).pages) (hne : id ≠ x.segment ∨ a ≠ x.page) (hlo : a ≤ b)
    (hhi : b + n ≤ a + (sys.heap.segment id).logicalPageSize) : x.Avoids b n := by
  have hin := h.granted_inside hx
  have hpage := (h.segmentInv x.segment).mem_of_owned (h.taken x hx).1
  simp only [Grant.Avoids]
  by_cases hid : id = x.segment
  · subst hid
    have hapart := (h.segmentInv x.segment).apart_of_ne ha hpage (hne.resolve_left (· rfl))
    simp only [PagesApart] at hapart
    omega
  · -- The higher of the two starts would belong to both segments.
    have hmax := h.inv.family.apart id x.segment trivial trivial hid (max a x.page)
    have hpos := (h.segmentInv id).pageSize_pos
    have hpos' := (h.segmentInv x.segment).pageSize_pos
    by_contra hmeet
    exact hmax ⟨a, ha, by omega, by omega⟩ ⟨x.page, hpage, by omega, by omega⟩

theorem aligned (h : HeapSystemInv H sys g) (hx : x ∈ sys.live) : x.ptr % 16 = 0 :=
  h.inv.owned_aligned (h.taken x hx).1

theorem nodup (h : HeapSystemInv H sys g) : sys.live.Nodup := by
  refine List.nodup_iff_count_le_one.mpr fun x => ?_
  by_contra hcount
  have hx : x ∈ sys.live := List.count_pos_iff.mp (by omega)
  have hmem : x ∈ sys.live.erase x := by
    rw [← List.count_pos_iff, List.count_erase_self]
    omega
  exact h.not_mem_erase hx (mem_liveAt hmem)

theorem apart (h : HeapSystemInv H sys g) : sys.live.Pairwise fun x y => x.Avoids y.ptr y.size := by
  refine h.nodup.pairwise_of_forall_ne fun x hx y hy hne => ?_
  obtain ⟨howned, hle⟩ := h.taken x hx
  obtain ⟨howned', hle'⟩ := h.taken y hy
  by_cases hid : y.segment = x.segment
  · have hdiff : x.allocation ≠ y.allocation := by
      intro heq
      refine h.not_mem_erase hx ?_
      rw [heq, ← hid]
      exact mem_liveAt ((List.mem_erase_of_ne (Ne.symm hne)).mpr hy)
    rw [hid] at howned'
    have hapart := (h.segmentInv x.segment).owned_apart howned howned' (.inr hdiff)
    simp only [Allocation.Apart, Grant.allocation] at hapart hle hle'
    simp only [Grant.Avoids]
    omega
  · have hpage := (h.segmentInv y.segment).mem_of_owned howned'
    have hin := h.granted_inside hy
    exact h.avoids_other_page hx hpage (.inl hid) (by omega) hin.2

theorem safe (h : HeapSystemInv H sys g) (hdirect : H.concurrency ≠ .threadLocal) : HeapSafe H sys where
  aligned x hx := h.aligned hx
  apart := h.apart
  pages id := by
    refine ⟨_, h.lists id, fun a ha => ?_⟩
    obtain ⟨nodes, hpath, h0, hnodes⟩ := (H.laws id).free_nodes ((h.segmentInv id).page a ha)
    have hframe := (h.segmentInv id).frame a ha
    have hend := (h.segmentInv id).bufferEnd ha
    have hobject := (H.laws id).objectSize_eq
    have hlt := (h.segmentInv id).geometry.object_lt
    refine ⟨nodes, ⟨hpath, h0⟩, fun x hx => ?_⟩
    by_cases hne : id ≠ x.segment ∨ a ≠ x.page
    · refine ⟨h.avoids_other_page hx ha hne le_rfl (by omega), fun node hnode => ?_⟩
      obtain ⟨hlo, hhi, _⟩ := hnodes node hnode
      simp only [Memory.page] at hlo hhi
      exact h.avoids_other_page hx ha hne (by omega) (by omega)
    · simp only [not_or, not_not] at hne
      obtain ⟨rfl, rfl⟩ := hne
      have hin := h.granted_inside hx
      obtain ⟨howned, hle⟩ := h.taken x hx
      refine ⟨.inr hin.1, fun node hnode => ?_⟩
      have hapart := (hnodes node hnode).2.2 _ howned
      simp only [Grant.allocation] at hapart hle
      simp only [Grant.Avoids]
      omega
  dispatch x hx := by
    obtain ⟨s, mem, _, he, hpage, _⟩ := h.deallocate_ok hdirect hx
    have hin := h.granted_inside hx
    obtain ⟨howned, hle⟩ := h.taken x hx
    have hsegment := h.segmentInv x.segment
    refine ⟨s, mem, _, h.lists x.segment, hsegment.mem_of_owned howned, ?_, he, hpage, ?_⟩
    · have hown := hsegment.owned_inside howned
      simp only [Grant.allocation] at hown
      simp only [onPage, Bool.and_eq_true, decide_eq_true_eq]
      omega
    · -- the client asked for no more than it was granted
      refine (hsegment.deallocateOnPage_effect (hsegment.mem_of_owned howned) (List.perm_cons_erase howned)
        (hsegment.frees_self howned) hpage).imp_right ?_
      rintro ⟨hkept, hback⟩
      refine ⟨hkept, hback.used, ?_⟩
      obtain ⟨nodes, node, hpath, hnode, hlo, hhi⟩ := hback.free
      exact ⟨nodes, node, hpath, hnode, hlo, le_trans (Nat.add_le_add_left hle _) hhi⟩
  progress action ha := by
    obtain ⟨sys', _, he, _⟩ := h.perform_ok hdirect ha
    rw [he]
    rfl

end HeapSystemInv

/-- A heap over an arena that gives out fresh buffers is safe in every run. -/
theorem heap_runs_safe (hdirect : H.concurrency ≠ .threadLocal) (h : HeapReachable H sys) :
    HeapSafe H sys := by
  obtain ⟨g, hinv⟩ := h.inv hdirect
  exact hinv.safe hdirect

/-- One page of 4096 bytes for each small bin and one of 8192 bytes for the big bin. -/
def onePageEach : HeapCreationParams :=
  { smallObjectLogicalPageSize := 4096
    bigObjectLogicalPageSize := 8192
    segmentGrowCoefficient := .zero }

def singleThreadHeap : HeapType := ⟨.singleThread, .coalesce, .immediate⟩

def createOnePageEach (bytes : Mem) : Option (Bool × SimpleHeapPow2 × Memory) :=
  SimpleHeapPow2.create singleThreadHeap onePageEach 4096 (fun _ => 1048576) (fun _ => true) {}
    ⟨bytes, fun _ => {}, [], []⟩

theorem reachable_onePageEach {bytes : Mem} {heap : SimpleHeapPow2} {mem : Memory}
    (h : createOnePageEach bytes = some (true, heap, mem)) :
    HeapReachable singleThreadHeap ⟨heap, mem, []⟩ := by
  have hbytes : heapBytes onePageEach = 40960 := by decide
  refine .create (k := 12) rfl rfl ?_ ?_ h
  · rw [hbytes]
    decide
  · rw [hbytes]
    exact fun _ => ⟨by decide, by decide, by decide, fun _ h => h.elim⟩

def HeapSystem.requests (H : HeapType) : List Nat → HeapSystem → Option HeapSystem
  | [], sys => some sys
  | size :: rest, sys => (sys.perform H (.allocate size refusingArena)).bind (requests H rest)

theorem HeapReachable.requests {sizes : List Nat} (h : HeapReachable H sys)
    (hp : sys.requests H sizes = some sys') : HeapReachable H sys' := by
  induction sizes generalizing sys with
  | nil =>
    cases hp
    exact h
  | cons size rest ih =>
    obtain ⟨sys₁, h₁, h₂⟩ := Option.bind_eq_some_iff.mp hp
    have ha : sys.Allowed (.allocate size refusingArena) := fun n hn => absurd rfl hn
    exact ih (h.step ha h₁) h₂

def afterRequests (sizes : List Nat) : Option HeapSystem :=
  (createOnePageEach fun _ => 0).bind fun (_, heap, mem) =>
    HeapSystem.requests singleThreadHeap sizes ⟨heap, mem, []⟩

theorem reachable_afterRequests {sizes : List Nat} (h : afterRequests sizes = some sys) :
    HeapReachable singleThreadHeap sys := by
  obtain ⟨⟨success, heap, mem⟩, hc, hp⟩ := Option.bind_eq_some_iff.mp h
  have hsuccess : (createOnePageEach fun _ => 0).map (fun r => r.1) = some true := by decide +kernel
  rw [hc] at hsuccess
  cases hsuccess
  exact (reachable_onePageEach hc).requests hp

theorem heap_runs_safe_of_three :
    ∃ sys, (singleThreadHeap.concurrency ≠ .threadLocal ∧ HeapReachable singleThreadHeap sys ∧
      sys.live = [⟨1052656, 16, .small 0, 1048576⟩, ⟨1081424, 3000, .big, 1081344⟩,
        ⟨1064768, 100, .small 3, 1060864⟩]) ∧ HeapSafe singleThreadHeap sys := by
  have he : (afterRequests [100, 3000, 16]).map HeapSystem.live =
      some [⟨1052656, 16, .small 0, 1048576⟩, ⟨1081424, 3000, .big, 1081344⟩,
        ⟨1064768, 100, .small 3, 1060864⟩] := by decide +kernel
  obtain ⟨sys, h, hlive⟩ := Option.map_eq_some_iff.mp he
  have hr := reachable_afterRequests h
  exact ⟨sys, ⟨by decide, hr, hlive⟩, heap_runs_safe (by decide) hr⟩

end
end Metamalloc.Heaps
