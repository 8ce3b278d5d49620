import Metamalloc.Segments.ThreadLocalChunks
import Metamalloc.Segments.RecyclableFlag

/-! The ownership test of a thread-local segment. Its interval starts at the first listed page
and is as long as the buffer was at the creation, whatever has left the list since. -/
namespace Metamalloc.Segments
open Library.Word64 Library.ByteMemory Library.LinkedList Pages

/-- The test tells the addresses of the listed pages, and answers as the search of the other policies does. -/
structure OwnershipAgrees (T : SegmentType) (sys : System) (l : List Nat) : Prop where
  inside : ∀ address < 2^64, Segment.ownsPointer T address sys.segment sys.memory = some true ↔
    ∃ page ∈ l, onPage sys.segment.logicalPageSize page address = true
  search : ∀ address < 2^64, Segment.ownsPointer T address sys.segment sys.memory =
    Segment.ownsPointer { T with concurrency := .central } address sys.segment sys.memory

def RecyclesNothing (T : SegmentType) (L : PageLaws T.page) (sys : System) (action : Action) : Prop :=
  Routine sys action ∧ ∀ sys', sys.perform T L action = some sys' → sys'.memory.released = sys.memory.released

/-- The listed pages are some of those the buffer was cut into. -/
structure OverBuffer (s : Segment) (l : List Nat) (b n : Nat) : Prop where
  pages : l.Sublist (newPages s.logicalPageSize b n)
  length : s.bufferLength = n * s.logicalPageSize
  inside : b + n * s.logicalPageSize < 2^64
  count : 0 < n

section
variable {T : SegmentType} {L : PageLaws T.page} {sys sys' : System} {g g' : Ghost} {action : Action}
  {s : Segment} {mem : Memory} {l : List Nat} {owned : Nat → List Allocation} {a b n P address : Nat}

theorem onPage_iff : onPage P a address = true ↔ a ≤ address ∧ address < a + P := by
  simp [onPage]

theorem exists_onPage_newPages_iff (hP : 0 < P) :
    (∃ page ∈ newPages P b n, onPage P page address = true) ↔ b ≤ address ∧ address < b + n * P := by
  constructor
  · rintro ⟨page, hpage, hon⟩
    obtain ⟨i, hi, rfl⟩ := List.mem_map.mp hpage
    have hstep : (i + 1) * P ≤ n * P := Nat.mul_le_mul_right P (List.mem_range.mp hi)
    rw [Nat.succ_mul] at hstep
    obtain ⟨hlo, hhi⟩ := onPage_iff.mp hon
    omega
  · rintro ⟨hlo, hhi⟩
    have hdiv := Nat.div_add_mod' (address - b) P
    have hmod := Nat.mod_lt (address - b) hP
    refine ⟨b + (address - b) / P * P, List.mem_map.mpr ⟨_, List.mem_range.mpr ?_, rfl⟩, onPage_iff.mpr ?_⟩
    · exact (Nat.div_lt_iff_lt_mul hP).mpr (by omega)
    · omega

/-- On the grid of the pages, the page around a page's start is that page. -/
theorem eq_of_onPage_grid {c : Nat} (hP : 0 < P) (ha : a ∈ newPages P b n) {i : Nat} (hc : c = b + i * P)
    (hon : onPage P a c = true) : a = c := by
  obtain ⟨k, _, rfl⟩ := List.mem_map.mp ha
  obtain ⟨hlo, hhi⟩ := onPage_iff.mp hon
  have hle : k ≤ i := Nat.le_of_mul_le_mul_right (by omega : k * P ≤ i * P) hP
  have hlt : i < k + 1 := by
    refine Nat.lt_of_mul_lt_mul_right (a := P) ?_
    rw [Nat.succ_mul]
    omega
  obtain rfl : k = i := by omega
  exact hc.symm

theorem nodup_newPages (hP : 0 < P) : (newPages P b n).Nodup := by
  refine List.Nodup.map (fun i j hij => ?_) List.nodup_range
  have hmul : i * P = j * P := Nat.add_left_cancel hij
  exact Nat.eq_of_mul_eq_mul_right hP hmul

/-- Fewer pages than the buffer has room for leave a gap in every interval of its length. -/
theorem exists_gap (hP : 0 < P) (hsub : ∀ c ∈ l, c ∈ newPages P b n) (hlen : l.length < n) (ha : a ∈ l) :
    ∃ j < n, ∀ page ∈ l, onPage P page (a + j * P) = false := by
  by_contra hno
  push Not at hno
  have hall : newPages P a n ⊆ l := by
    intro c hc
    obtain ⟨j, hj, rfl⟩ := List.mem_map.mp hc
    obtain ⟨page, hpage, hon⟩ := hno j (List.mem_range.mp hj)
    obtain ⟨i, _, hi⟩ := List.mem_map.mp (hsub a ha)
    have hgrid : a + j * P = b + (i + j) * P := by
      rw [← hi, Nat.add_mul, Nat.add_assoc]
    have heq := eq_of_onPage_grid hP (hsub page hpage) hgrid (by simpa using hon)
    rwa [← heq]
  have hle := ((nodup_newPages hP).subperm hall).length_le
  rw [newPages, List.length_map, List.length_range] at hle
  omega

theorem SegmentInv.ownsPointer_central (h : SegmentInv T L s mem l owned) :
    Segment.ownsPointer { T with concurrency := .central } address s mem =
      some (decide (∃ page ∈ l, onPage s.logicalPageSize page address = true)) := by
  rw [Segment.ownsPointer, if_neg (by simp)]
  by_cases hpage : ∃ page ∈ l, onPage s.logicalPageSize page address = true
  · obtain ⟨page, hl, hon⟩ := hpage
    obtain ⟨hlo, hhi⟩ := onPage_iff.mp hon
    rw [h.findLogicalPage hl hlo hhi, decide_eq_true ⟨page, hl, hon⟩, Option.map_some,
      bne_iff_ne.mpr (h.listed.ne_zero hl)]
  · rw [h.findLogicalPage_of_not_region, decide_eq_false hpage, Option.map_some]
    · rfl
    · rintro ⟨page, hl, hin⟩
      exact hpage ⟨page, hl, onPage_iff.mpr hin⟩

/-- The interval covers the listed pages and nothing else exactly when none has left the list. -/
theorem OverBuffer.interval_iff (h : OverBuffer s l b n) (hinv : SegmentInv T L s mem l owned) :
    (∀ address < 2^64, (s.head ≤ address ∧ address < add64 s.head s.bufferLength) ↔
      ∃ page ∈ l, onPage s.logicalPageSize page address = true) ↔ l.length = n := by
  have hP := hinv.pageSize_pos
  have hinside := h.inside
  have hcount := h.count
  have hlength : 0 < n * s.logicalPageSize := Nat.mul_pos hcount hP
  rw [h.length]
  constructor
  · intro hagree
    by_contra hne
    have hfull := h.pages.length_le
    rw [newPages, List.length_map, List.length_range] at hfull
    have hshort : l.length < n := by omega
    cases l with
    | nil =>
      -- without pages the interval starts at null
      have hhead : s.head = 0 := hinv.listed.head_eq_zero_iff.mpr rfl
      have hnull := (hagree 0 (by decide)).mp ?_
      · obtain ⟨page, hpage, _⟩ := hnull
        cases hpage
      · rw [hhead, add64_of_lt (by omega)]
        omega
    | cons a rest =>
      obtain ⟨hhead, _⟩ := hinv.listed.paths.1
      have ha : a ∈ a :: rest := List.mem_cons_self
      have hlt := hinv.inside a ha
      rw [hhead] at hagree
      by_cases hwrap : a + n * s.logicalPageSize < 2^64
      · obtain ⟨j, hj, hgap⟩ := exists_gap hP (fun c hc => h.pages.subset hc) hshort ha
        have hstep : j * s.logicalPageSize < n * s.logicalPageSize := Nat.mul_lt_mul_of_pos_right hj hP
        obtain ⟨page, hpage, hon⟩ := (hagree (a + j * s.logicalPageSize) (by omega)).mp
          (by rw [add64_of_lt hwrap]; omega)
        rw [hgap page hpage] at hon
        cases hon
      · -- the end of the interval wraps, and the first page itself is outside
        have hself := (hagree a (by omega)).mpr ⟨a, ha, onPage_iff.mpr (by omega)⟩
        unfold add64 at hself
        omega
  · intro hlen
    have hall : l = newPages s.logicalPageSize b n :=
      h.pages.eq_of_length (by rw [hlen, newPages, List.length_map, List.length_range])
    have hhead : s.head = b := by
      obtain ⟨k, rfl⟩ : ∃ k, n = k + 1 := ⟨n - 1, by omega⟩
      have hpath := hinv.listed.paths.1
      rw [hall, newPages, List.range_eq_range', List.range'_succ, List.map_cons] at hpath
      rw [hpath.1, Nat.zero_mul, Nat.add_zero]
    intro address _
    rw [hall, exists_onPage_newPages_iff hP, hhead, add64_of_lt h.inside]

theorem OverBuffer.agrees_iff (hlocal : T.concurrency = .threadLocal) (h : OverBuffer sys.segment l b n)
    (hinv : SegmentInv T L sys.segment sys.memory l owned) : OwnershipAgrees T sys l ↔ l.length = n := by
  have howns : ∀ address, Segment.ownsPointer T address sys.segment sys.memory = some true ↔
      sys.segment.head ≤ address ∧ address < add64 sys.segment.head sys.segment.bufferLength := by
    intro address
    rw [Segment.ownsPointer, if_pos hlocal]
    simp
  rw [← h.interval_iff hinv]
  constructor
  · intro hagrees address hlt
    rw [← howns]
    exact hagrees.inside address hlt
  · intro hinterval
    have hinside : ∀ address < 2^64, Segment.ownsPointer T address sys.segment sys.memory = some true ↔
        ∃ page ∈ l, onPage sys.segment.logicalPageSize page address = true := fun address hlt =>
      (howns address).trans (hinterval address hlt)
    refine ⟨hinside, fun address hlt => ?_⟩
    rw [hinv.ownsPointer_central]
    by_cases hpage : ∃ page ∈ l, onPage sys.segment.logicalPageSize page address = true
    · rw [decide_eq_true hpage]
      exact (hinside address hlt).mpr hpage
    · have hnot := mt (hinside address hlt).mp hpage
      rw [decide_eq_false hpage]
      rw [Segment.ownsPointer, if_pos hlocal] at hnot ⊢
      simpa using hnot

/-- A step keeps the pages in their buffer, and keeps all of them unless it releases one. -/
theorem StepEffect.overBuffer (hlocal : T.concurrency = .threadLocal) (h : SystemInv T L sys g)
    (he : StepEffect T L sys g action sys' g') (hb : OverBuffer sys.segment g.pages b n) :
    OverBuffer sys'.segment g'.pages b n ∧
      (sys'.memory.released = sys.memory.released → g'.pages = g.pages) := by
  have hconfig := he.config h
  have hpages : g'.pages.Sublist g.pages ∧ (sys'.memory.released = sys.memory.released → g'.pages = g.pages) := by
    cases he with
    | quiet hpages => exact ⟨by rw [hpages], fun _ => hpages⟩
    | freed _ hf =>
      rcases hf.outcome with ⟨_, hl, hr⟩ | ⟨_, hl, _⟩
      · refine ⟨by rw [hl]; exact List.erase_sublist, fun hsame => ?_⟩
        rw [hsame] at hr
        exact absurd (congrArg List.length hr) (by simp)
      · exact ⟨by rw [hl], fun _ => hl⟩
    | allocated _ ho =>
      have hkeep : g'.pages = g.pages := by
        generalize g'.pages = l', sys'.segment = s', sys'.memory = mem', g'.owned = owned' at ho
        cases ho with
        | refused => rfl
        | served => rfl
        | failed => rfl
        | grown hgranted => exact absurd hlocal hgranted.1
        | grownServed hgranted => exact absurd hlocal hgranted.1
      exact ⟨by rw [hkeep], fun _ => hkeep⟩
  refine ⟨⟨?_, ?_, ?_, hb.count⟩, hpages.2⟩
  · rw [hconfig]
    exact hpages.1.trans hb.pages
  · rw [hconfig]
    exact hb.length
  · rw [hconfig]
    exact hb.inside

theorem create_overBuffer {buffer : Nat} {queueMemory : Bool} {params : SegmentCreationParameters} {mem' : Memory}
    (hlocal : T.concurrency = .threadLocal) (L : PageLaws T.page) (hword : params.logicalPageSize < 2^64)
    (hb : FreshBuffer T { logicalPageSize := params.logicalPageSize } [] buffer params.logicalPageCount)
    (hp : T.bufferAlignedToLogicalPageSize = true → ∃ k ≤ 64, params.logicalPageSize = 2^k)
    (h : Segment.create T buffer queueMemory params {} mem = some (true, s, mem')) :
    OverBuffer s (newPages params.logicalPageSize buffer params.logicalPageCount) buffer params.logicalPageCount := by
  have hc := create_spec L hword hb hp h
  have hinside := hb.inside
  have hcount : params.logicalPageCount ≠ 0 := by
    intro h0
    rw [Segment.create, if_pos (.inr (.inr (.inl h0)))] at h
    cases h
  refine ⟨by rw [hc.pageSize], ?_, by rwa [hc.pageSize], Nat.pos_of_ne_zero hcount⟩
  dsimp only at hinside
  rw [hc.bufferLength hlocal, hc.pageSize, mul64_of_lt (by rw [Nat.mul_comm]; omega), Nat.mul_comm]

theorem Reachable.overBuffer {condition : System → Action → Prop} (hlocal : T.concurrency = .threadLocal)
    (hroutine : ∀ sys action, condition sys action → Routine sys action) (h : Reachable T L condition sys) :
    ∃ g b n, SystemInv T L sys g ∧ OverBuffer sys.segment g.pages b n ∧
      ((∀ sys action, condition sys action → RecyclesNothing T L sys action) → g.pages.length = n) := by
  induction h with
  | @create buffer queueMemory params s mem mem' hword hb hp _ h =>
    refine ⟨_, buffer, params.logicalPageCount, create_inv hword hb hp h, create_overBuffer hlocal L hword hb hp h,
      fun _ => ?_⟩
    rw [newPages, List.length_map, List.length_range]
  | step _ ha hc hp ih =>
    obtain ⟨g, b, n, hg, hbuffer, hall⟩ := ih
    obtain ⟨g', hg', heffect⟩ := step_ok hg ha (hroutine _ _ hc) hp
    obtain ⟨hbuffer', hsame⟩ := heffect.overBuffer hlocal hg hbuffer
    refine ⟨g', b, n, hg', hbuffer', fun hkeeps => ?_⟩
    rw [hsame ((hkeeps _ _ hc).2 _ hp)]
    exact hall hkeeps

end

/-- The constant-time test agrees with the page list exactly where the listed pages still fill
the buffer, and so in every state of every run that gives no page back. -/
theorem ownsPointer_agrees (kind : PageKind) (recycling : PageRecyclingPolicy) (aligned : Bool) :
    (∀ sys l, Reachable ⟨.threadLocal, kind.pageType, recycling, aligned⟩ kind.laws Routine sys → sys.Lists l →
      (OwnershipAgrees ⟨.threadLocal, kind.pageType, recycling, aligned⟩ sys l ↔
        sys.segment.logicalPageCount * sys.segment.logicalPageSize = sys.segment.bufferLength)) ∧
    ∀ sys l, Reachable ⟨.threadLocal, kind.pageType, recycling, aligned⟩ kind.laws
        (RecyclesNothing ⟨.threadLocal, kind.pageType, recycling, aligned⟩ kind.laws) sys → sys.Lists l →
      OwnershipAgrees ⟨.threadLocal, kind.pageType, recycling, aligned⟩ sys l := by
  constructor
  · intro sys l h hl
    obtain ⟨g, b, n, hg, hbuffer, _⟩ := h.overBuffer rfl fun _ _ hr => hr
    obtain rfl := hl.1.unique hg.lists.1 hl.2 hg.lists.2
    rw [hbuffer.agrees_iff rfl hg.segment, hg.segment.listed.count, hbuffer.length]
    exact (Nat.mul_left_inj hg.segment.pageSize_pos.ne').symm
  · intro sys l h hl
    obtain ⟨g, b, n, hg, hbuffer, hall⟩ := h.overBuffer rfl fun _ _ hc => hc.1
    obtain rfl := hl.1.unique hg.lists.1 hl.2 hg.lists.2
    exact (hbuffer.agrees_iff rfl hg.segment).mpr (hall fun _ _ hc => hc)

def releasesNothing (T : SegmentType) (L : PageLaws T.page) (sys : System) (action : Action) : Bool :=
  (sys.perform T L action).all fun sys' => sys'.memory.released = sys.memory.released

theorem TestedStep.recyclesNothing {T : SegmentType} {L : PageLaws T.page} {sys : System} {action : Action}
    (h : TestedStep (releasesNothing T L) sys action) : RecyclesNothing T L sys action := by
  refine ⟨h.routine, fun sys' hp => ?_⟩
  have hpasses := h.passes
  rw [releasesNothing, hp] at hpasses
  exact of_decide_eq_true hpasses

/-- Chunks of both pages are taken, given back and freed, and both pages stay. -/
theorem ownsPointer_agrees_of_two :
    ∃ sys l, Reachable ⟨.threadLocal, LogicalPage.pageType, .immediate, false⟩ LogicalPage.laws
        (RecyclesNothing ⟨.threadLocal, LogicalPage.pageType, .immediate, false⟩ LogicalPage.laws) sys ∧
      (sys.live = [⟨13696, 1344⟩, ⟨15040, 1344⟩] ∧ sys.deallocating = [⟨10944, 1344⟩]) ∧
      sys.Lists l ∧ l = [8192, 12288] ∧
      OwnershipAgrees ⟨.threadLocal, LogicalPage.pageType, .immediate, false⟩ sys l := by
  have hrefused : ∀ action ∈ fiveChunksOut ++
      [.deallocatePopped, .pop, .deallocatePopped, .pop, .finish refusingArena], action.Refused := by
    simp [fiveChunksOut, request, giveBack, Action.Refused, List.replicate]
  have hstate : (afterSteps ⟨.threadLocal, LogicalPage.pageType, .immediate, false⟩ LogicalPage.laws threeChunks
      (releasesNothing ⟨.threadLocal, LogicalPage.pageType, .immediate, false⟩ LogicalPage.laws)
      (fiveChunksOut ++ [.deallocatePopped, .pop, .deallocatePopped, .pop, .finish refusingArena])).map
      (fun sys => ((sys.segment.head, sys.memory.getNext 8192, sys.memory.getNext 12288),
        sys.live, sys.deallocating)) =
      some ((8192, 12288, 0), [⟨13696, 1344⟩, ⟨15040, 1344⟩], [⟨10944, 1344⟩]) := by decide +kernel
  obtain ⟨sys, _, h, hstate⟩ := exists_afterSteps rfl (by decide) (by decide) hrefused hstate
  simp only [Prod.mk.injEq] at hstate
  have hrun := h.mono fun _ _ _ hc => hc.recyclesNothing
  have hlists : sys.Lists [8192, 12288] := ⟨hstate.1, by decide⟩
  exact ⟨sys, _, hrun, hstate.2, hlists, rfl,
    (ownsPointer_agrees .logicalPage .immediate false).2 sys _ hrun hlists⟩

/-- The drain has emptied the first page. -/
def firstPageRecycled : List Action :=
  firstPageToEmpty ++ [.deallocatePopped, .pop, .finish refusingArena]

theorem refused_of_mem_firstPageRecycled : ∀ action ∈ firstPageRecycled, action.Refused := by
  simp [firstPageRecycled, firstPageToEmpty, request, giveBack, Action.Refused]

/-- With the first page recycled the interval reaches behind the buffer. -/
theorem owns_pointer_behind_buffer :
    ∃ sys, Reachable ⟨.threadLocal, LogicalPage.pageType, .immediate, false⟩ LogicalPage.laws Routine sys ∧
      sys.Lists [12288] ∧ sys.segment.logicalPageSize = 4096 ∧
      Segment.ownsPointer ⟨.threadLocal, LogicalPage.pageType, .immediate, false⟩ 16384 sys.segment sys.memory =
        some true ∧
      ¬ OwnershipAgrees ⟨.threadLocal, LogicalPage.pageType, .immediate, false⟩ sys [12288] := by
  have hstate : (afterSteps ⟨.threadLocal, LogicalPage.pageType, .immediate, false⟩ LogicalPage.laws twoChunks
      (fun _ _ => true) firstPageRecycled).map (fun sys =>
      ((sys.segment.head, sys.memory.getNext 12288), sys.segment.logicalPageSize,
        Segment.ownsPointer ⟨.threadLocal, LogicalPage.pageType, .immediate, false⟩ 16384 sys.segment sys.memory)) =
      some ((12288, 0), 4096, some true) := by decide +kernel
  obtain ⟨sys, _, h, hstate⟩ := exists_afterSteps rfl (by decide) (by decide) refused_of_mem_firstPageRecycled hstate
  simp only [Prod.mk.injEq] at hstate
  obtain ⟨hlist, hsize, howns⟩ := hstate
  refine ⟨sys, h.mono fun _ _ _ hc => hc.routine, ⟨hlist, by decide⟩, hsize, howns, fun h => ?_⟩
  obtain ⟨page, hpage, hon⟩ := (h.inside 16384 (by decide)).mp howns
  rw [List.mem_singleton.mp hpage, hsize] at hon
  exact absurd hon (by decide)

end Metamalloc.Segments
