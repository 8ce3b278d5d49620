import Metamalloc.Segments.PageRecycling

/-! The used flag of a page and deferred recycling. The flag is set when the page is made and
cleared when it becomes empty; no allocation sets it again. -/
namespace Metamalloc.Segments
open Library.Word64 Library.ByteMemory Library.LinkedList Pages

/-- A marked page has given nothing out. -/
def MarkedEmpty (mem : Memory) (l : List Nat) (owned : Nat → List Allocation) : Prop :=
  ∀ a ∈ l, (mem.pages a).canBeRecycled = true → owned a = []

structure Recycled (T : SegmentType) (L : PageLaws T.page) (s : Segment) (mem : Memory) (l : List Nat)
    (owned : Nat → List Allocation) (released : List Nat) (s' : Segment) (mem' : Memory)
    (l' : List Nat) : Prop where
  inv : SegmentInv T L s' mem' l' owned
  config : s'.toSegmentConfig = s.toSegmentConfig
  queue : s'.deallocationQueue = s.deallocationQueue
  within : Within mem mem' (region s.logicalPageSize l)
  log : mem'.released = released.map (fun a => (a, s.logicalPageSize)) ++ mem.released
  pages : l.Perm (l' ++ released)
  empty : ∀ a ∈ released, owned a = []
  flags : ∀ b, (mem'.pages b).canBeRecycled = (mem.pages b).canBeRecycled

section
variable {T : SegmentType} {L : PageLaws T.page} {s s' : Segment} {mem mem' : Memory}
  {l l₁ l₂ : List Nat} {owned : Nat → List Allocation} {fuel num iter iterPrevious : Nat}

theorem Recycled.refl (h : SegmentInv T L s mem l owned) : Recycled T L s mem l owned [] s mem l :=
  ⟨h, rfl, rfl, .refl _ _, rfl, by rw [List.append_nil], by simp, fun _ => rfl⟩

theorem Recycled.cons {a : Nat} {s'' : Segment} {mem'' : Memory} {l'' released : List Nat}
    (ha : a ∈ l) (he : owned a = []) (hconfig : s'.toSegmentConfig = s.toSegmentConfig)
    (hqueue : s'.deallocationQueue = s.deallocationQueue)
    (hwithin : Within mem mem' (region s.logicalPageSize l))
    (hlog : mem'.released = (a, s.logicalPageSize) :: mem.released)
    (hflags : ∀ b, (mem'.pages b).canBeRecycled = (mem.pages b).canBeRecycled)
    (h : Recycled T L s' mem' (l.erase a) owned released s'' mem'' l'') :
    Recycled T L s mem l owned (released ++ [a]) s'' mem'' l'' := by
  refine ⟨h.inv, h.config.trans hconfig, h.queue.trans hqueue, hwithin.trans ?_, ?_, ?_, ?_, fun b =>
    (h.flags b).trans (hflags b)⟩
  · refine h.within.mono fun c hc => ?_
    rw [hconfig] at hc
    exact region_mono (fun b hb => List.mem_of_mem_erase hb) c hc
  · rw [h.log, hlog, hconfig, List.map_append, List.append_assoc]
    rfl
  · rw [← List.append_assoc]
    exact (List.perm_cons_erase ha).trans
      ((h.pages.cons a).trans (List.perm_append_singleton a _).symm)
  · intro b hb
    rcases List.mem_append.mp hb with hb | hb
    · exact h.empty b hb
    · rw [List.mem_singleton.mp hb]
      exact he

/-- The loop walks over `l₁` and goes on with `l₂`; it removes marked pages on its way. -/
theorem recycleFreeLoop_spec (h : SegmentInv T L s mem (l₁ ++ l₂) owned)
    (hmarked : MarkedEmpty mem (l₁ ++ l₂) owned) (hpath : Path mem.getNext iter l₂ 0)
    (hprevious : iterPrevious = 0 ∨ ∃ l₀, l₁ = l₀ ++ [iterPrevious])
    (he : Segment.recycleFreeLoop fuel num iter iterPrevious s mem = some (s', mem')) :
    ∃ released l', Recycled T L s mem (l₁ ++ l₂) owned released s' mem' l' := by
  induction fuel generalizing num iter iterPrevious s mem l₁ l₂ with
  | zero => cases he
  | succ fuel ih =>
    rw [Segment.recycleFreeLoop] at he
    by_cases hnum : num = 0
    · rw [if_pos hnum] at he
      cases he
      exact ⟨[], _, .refl h⟩
    rw [if_neg hnum] at he
    by_cases h0 : iter = 0
    · rw [if_pos h0] at he
      cases he
    rw [if_neg h0] at he
    obtain ⟨l₂, rfl⟩ := hpath.ne_nil h0
    have hmem : iter ∈ l₁ ++ iter :: l₂ := List.mem_append_right _ List.mem_cons_self
    by_cases hr : (mem.pages iter).canBeRecycled = true
    · rw [if_pos hr] at he
      have hempty := hmarked iter hmem hr
      obtain ⟨s₁, mem₁, hrec, hinv, hconfig, hqueue, hwithin, _, hlog, hflags⟩ :=
        h.recycleLogicalPage hmem hempty
      rw [hrec] at he
      dsimp only at he
      rcases hprevious with hp | ⟨l₀, rfl⟩
      · rw [if_pos hp] at he
        cases he
      · have hp0 : iterPrevious ≠ 0 := h.listed.ne_zero (by simp)
        rw [if_neg hp0] at he
        have herase := erase_middle h.listed.ring.nodup_list
        have hinv' := hinv
        rw [herase] at hinv'
        have hmarked' : MarkedEmpty mem₁ (l₀ ++ [iterPrevious] ++ l₂) owned := by
          intro b hb hbr
          rw [hflags b] at hbr
          exact hmarked b (List.perm_middle.mem_iff.mpr (List.mem_cons_of_mem _ hb)) hbr
        obtain ⟨released, l', hrest⟩ := ih hinv' hmarked' hinv'.listed.path_behind (.inr ⟨l₀, rfl⟩) he
        rw [← herase] at hrest
        exact ⟨_, l', .cons hmem hempty hconfig hqueue hwithin hlog hflags hrest⟩
    · rw [if_neg hr] at he
      rw [List.append_cons] at h hmarked ⊢
      exact ih h hmarked hpath.2 (.inr ⟨l₁, rfl⟩) he

theorem recycleFreeLogicalPages_spec (h : SegmentInv T L s mem l owned) (hmarked : MarkedEmpty mem l owned)
    (he : Segment.recycleFreeLogicalPages s mem = some (s', mem')) :
    ∃ released l', Recycled T L s mem l owned released s' mem' l' := by
  rw [← List.nil_append l] at h hmarked ⊢
  exact recycleFreeLoop_spec h hmarked h.listed.paths.1 (.inl rfl) he

end

/-- The steps before the end of the segment. -/
def UntilDestroyed (sys : System) (action : Action) : Prop :=
  Routine sys action ∨ action = .recycleFreeLogicalPages

/-- No listed page serves the request, or the one that does carries the used flag. -/
def ServedByUsedPage (T : SegmentType) (sys : System) (size : Nat) : Prop :=
  ∀ l a, sys.Lists l → (searchOrder sys.segment l).find? (serves T size sys.memory) = some a →
    (sys.memory.pages a).canBeRecycled = false

/-- Every search of the step ends with a page that carries the used flag. -/
def KeepsFlags (T : SegmentType) (sys : System) (action : Action) : Prop :=
  UntilDestroyed sys action ∧
    match action with
    | .allocate size _ => ServedByUsedPage T sys size
    | .finish _ => ∀ size, sys.control = .drained (.allocate size) 0 → ServedByUsedPage T sys size
    | _ => True

section
variable {T : SegmentType} {L : PageLaws T.page} {sys sys' : System} {g g' : Ghost} {action : Action}

/-- Only a search that a marked page serves breaks the agreement of flag and used size. -/
theorem AllocateOutcome.markedEmpty {arena : ArenaAnswers} {size ret : Nat} {s s' : Segment}
    {mem mem' : Memory} {l l' : List Nat} {owned owned' : Nat → List Allocation}
    (hm : MarkedEmpty mem l owned) (h : SegmentInv T L s mem l owned)
    (hserved : ∀ a, (searchOrder s l).find? (serves T size mem) = some a →
      (mem.pages a).canBeRecycled = false)
    (ho : AllocateOutcome T L arena size s mem l owned ret s' mem' l' owned') :
    MarkedEmpty mem' l' owned' := by
  cases ho with
  | refused => exact hm
  | served hfind hs =>
    intro b hb hr
    rw [hs.flags b] at hr
    rw [Function.update_of_ne]
    · exact hm b hb hr
    · rintro rfl
      rw [hserved _ hfind] at hr
      cases hr
  | @failed n b hb hfresh =>
    intro c hc hr
    have hne : c ≠ b := by
      rintro rfl
      have hap := hfresh.apart c hc
      have hle : s.logicalPageSize ≤ n * s.logicalPageSize := Nat.le_mul_of_pos_left _ hb.2.choose_spec.2.1
      have hpos := h.pageSize_pos
      omega
    have hpages : ((mem.setHeader b {}).releaseToSystem b s.logicalPageSize).pages c = mem.pages c :=
      Memory.pages_setHeader_of_ne _ _ hne
    rw [hpages] at hr
    exact hm c hc hr
  | grown _ hg =>
    intro b hb hr
    obtain ⟨hr, hnew⟩ := hg.flags b hr
    exact hm b ((List.mem_append.mp hb).resolve_right hnew) hr
  | @grownServed n b _ _ _ _ hb hg hs =>
    intro c hc hr
    rw [hs.flags c] at hr
    obtain ⟨hr, hnew⟩ := hg.flags c hr
    rw [Function.update_of_ne]
    · exact hm c ((List.mem_append.mp hc).resolve_right hnew) hr
    · rintro rfl
      obtain ⟨k, rfl⟩ : ∃ k, n = k + 1 := ⟨n - 1, by have := hb.2.choose_spec.2.1; omega⟩
      exact hnew (by rw [newPages_succ]; exact List.mem_cons_self)

theorem StepEffect.markedEmpty (he : StepEffect T L sys g action sys' g') (h : SystemInv T L sys g)
    (hm : MarkedEmpty sys.memory g.pages g.owned) (hc : KeepsFlags T sys action) :
    MarkedEmpty sys'.memory g'.pages g'.owned := by
  cases he with
  | quiet hpages howned _ _ hheaders => rwa [hpages, howned, MarkedEmpty, hheaders]
  | @freed a x rest hperm hf howned =>
    intro b hb hr
    rw [howned]
    have hbl : b ∈ g.pages := by
      rcases hf.outcome with ⟨_, hl, _⟩ | ⟨_, hl, _⟩
      · rw [hl] at hb
        exact List.mem_of_mem_erase hb
      · rwa [hl] at hb
    rcases hf.flags b hr with hr | ⟨rfl, hrest⟩
    · have hempty := hm b hbl hr
      rw [Function.update_of_ne]
      · exact hempty
      · rintro rfl
        rw [hempty] at hperm
        exact absurd hperm.length_eq (by simp)
    · rw [Function.update_self]
      exact hrest
  | @allocated arena size ret haction ho =>
    refine ho.markedEmpty hm h.segment fun a ha => ?_
    rcases haction with rfl | ⟨rfl, hcontrol⟩
    · exact hc.2 g.pages a h.lists ha
    · exact hc.2 size hcontrol g.pages a h.lists ha

/-- A deferred recycling of pages that are empty keeps the invariant. -/
theorem SystemInv.recycled {released l' : List Nat} {s' : Segment} {mem' : Memory}
    (h : SystemInv T L sys g)
    (hr : Recycled T L sys.segment sys.memory g.pages g.owned released s' mem' l') :
    SystemInv T L { sys with segment := s', memory := mem' } { g with pages := l' } ∧
      UnusedReleased sys { sys with segment := s', memory := mem' } g.pages released := by
  have hsub : ∀ a ∈ released, a ∈ g.pages := fun a ha =>
    hr.pages.symm.subset (List.mem_append_right _ ha)
  refine ⟨⟨hr.inv, hr.queue.trans h.queue, h.hand, h.kept, fun x => ?_⟩, hr.log, hsub, ?_⟩
  · rw [← flatMap_of_empty hr.empty, ← (hr.pages.flatMap_right g.owned).count_eq x]
    exact h.shared x
  · intro a ha p hp
    refine h.not_onPage (hsub a ha) (hr.empty a ha) ?_
    simpa only [System.pointersOut, hr.queue] using hp

theorem perform_recycleFree (hp : sys.perform T L .recycleFreeLogicalPages = some sys') :
    ∃ s' mem', Segment.recycleFreeLogicalPages sys.segment sys.memory = some (s', mem') ∧
      sys' = { sys with segment := s', memory := mem' } := by
  obtain ⟨⟨s', mem'⟩, he, rfl⟩ := Option.map_eq_some_iff.mp hp
  exact ⟨s', mem', he, rfl⟩

theorem Reachable.markedEmpty (h : Reachable T L (KeepsFlags T) sys) :
    ∃ g, SystemInv T L sys g ∧ MarkedEmpty sys.memory g.pages g.owned := by
  induction h with
  | create hword hb hp hlog h => exact ⟨_, create_inv hword hb hp h, fun _ _ _ => rfl⟩
  | step _ ha hc hp ih =>
    obtain ⟨g, hg, hm⟩ := ih
    rcases hc.1 with hroutine | rfl
    · obtain ⟨g', hg', heffect⟩ := step_ok hg ha hroutine hp
      exact ⟨g', hg', heffect.markedEmpty hg hm hc⟩
    · obtain ⟨s', mem', he, rfl⟩ := perform_recycleFree hp
      obtain ⟨released, l', hr⟩ := recycleFreeLogicalPages_spec hg.segment hm he
      refine ⟨_, (hg.recycled hr).1, fun a ha hflag => hm a ?_ (hr.flags a ▸ hflag)⟩
      exact hr.pages.symm.subset (List.mem_append_left _ ha)

end

def servedByUsedPage (T : SegmentType) (sys : System) (size : Nat) : Bool :=
  decide (size + 32 < 2^64) &&
    match Segment.searchListed T size sys.segment sys.memory with
    | some (some (a, _), _) => !(sys.memory.pages a).canBeRecycled
    | _ => true

def keepsFlags (T : SegmentType) (sys : System) : Action → Bool
  | .allocate size _ => servedByUsedPage T sys size
  | .finish _ => match sys.control with
    | .drained (.allocate size) _ => servedByUsedPage T sys size
    | _ => true
  | _ => true

section
variable {T : SegmentType} {L : PageLaws T.page} {sys : System} {g : Ghost} {action : Action} {size : Nat}

theorem SystemInv.servedByUsedPage (h : SystemInv T L sys g)
    (ht : Segments.servedByUsedPage T sys size = true) : ServedByUsedPage T sys size := by
  obtain ⟨hsize, hsearch⟩ := Bool.and_eq_true_iff.mp ht
  intro l a hl ha
  obtain rfl := h.eq_of_lists hl
  rcases searchListed_spec h.segment (of_decide_eq_true hsize) with ⟨hnone, _⟩ | ⟨b, ret, mem', hfind, he, _⟩
  · rw [hnone] at ha
    cases ha
  · rw [he] at hsearch
    rw [hfind] at ha
    cases ha
    simpa using hsearch

theorem TestedStep.keepsFlags (h : TestedStep (keepsFlags T) sys action) (hg : SystemInv T L sys g) :
    KeepsFlags T sys action := by
  obtain ⟨hroutine, _, hpasses⟩ := h
  refine ⟨.inl hroutine, ?_⟩
  cases action with
  | allocate size arena => exact hg.servedByUsedPage hpasses
  | finish arena =>
    intro size hcontrol
    rw [Segments.keepsFlags, hcontrol] at hpasses
    exact hg.servedByUsedPage hpasses
  | _ => trivial

end

def threePages : SegmentCreationParameters :=
  { logicalPageSize := 4096, logicalPageCount := 3, sizeClass := 2016, pageRecyclingThreshold := 2 }

/-- The second page is emptied behind the cursor, and the third one serves the next request. -/
def emptiedBehindCursor : List Call :=
  [.allocate 2016, .allocate 2016, .allocate 2016, .allocate 2016, .allocate 2016,
    .deallocate ⟨12352, 2016⟩, .deallocate ⟨14368, 2016⟩, .allocate 2016]

/-- As long as no allocation is served by a page without the used flag, a page without it is
empty, and deferred recycling releases only pages nobody has a pointer to. -/
theorem recyclable_pages_empty {concurrency : ConcurrencyPolicy} {kind : PageKind}
    {recycling : PageRecyclingPolicy} {aligned : Bool} {sys : System}
    (h : Reachable ⟨concurrency, kind.pageType, recycling, aligned⟩ kind.laws
      (KeepsFlags ⟨concurrency, kind.pageType, recycling, aligned⟩) sys) :
    ∃ l, sys.Lists l ∧
      (∀ a ∈ l, (sys.memory.pages a).canBeRecycled = true → (sys.memory.pages a).usedSize = 0) ∧
      ∀ sys', sys.perform ⟨concurrency, kind.pageType, recycling, aligned⟩ kind.laws
        .recycleFreeLogicalPages = some sys' → ∃ released, UnusedReleased sys sys' l released := by
  obtain ⟨g, hg, hm⟩ := h.markedEmpty
  refine ⟨g.pages, hg.lists, fun a ha hr => (hg.segment.used_eq_zero ha).mpr (hm a ha hr), ?_⟩
  intro sys' hp
  obtain ⟨s', mem', he, rfl⟩ := perform_recycleFree hp
  obtain ⟨released, l', hr⟩ := recycleFreeLogicalPages_spec hg.segment hm he
  exact ⟨released, (hg.recycled hr).2⟩

/-- The second page is emptied, kept and passed over, and deferred recycling then releases it. -/
theorem recyclable_pages_empty_of_three :
    ∃ sys sys', Reachable ⟨.singleThread, PageKind.logicalPage.pageType, .deferred, false⟩
        PageKind.logicalPage.laws
        (KeepsFlags ⟨.singleThread, PageKind.logicalPage.pageType, .deferred, false⟩) sys ∧
      sys.Lists [8192, 12288, 16384] ∧ sys.pointersOut = [16448, 18464, 8256, 10272] ∧
      (sys.memory.pages 12288).canBeRecycled = true ∧ (sys.memory.pages 12288).usedSize = 0 ∧
      sys.perform ⟨.singleThread, PageKind.logicalPage.pageType, .deferred, false⟩ PageKind.logicalPage.laws
        .recycleFreeLogicalPages = some sys' ∧
      ∃ released, UnusedReleased sys sys' [8192, 12288, 16384] released ∧
        sys'.memory.released = [(12288, 4096)] := by
  have hstate : (afterSteps ⟨.singleThread, LogicalPage.pageType, .deferred, false⟩ LogicalPage.laws threePages
      (keepsFlags ⟨.singleThread, LogicalPage.pageType, .deferred, false⟩)
      (emptiedBehindCursor.flatMap Call.actions)).map (fun sys =>
        ((sys.segment.head, sys.memory.getNext 8192, sys.memory.getNext 12288, sys.memory.getNext 16384),
          sys.pointersOut, (sys.memory.pages 12288).canBeRecycled)) =
      some ((8192, 12288, 16384, 0), [16448, 18464, 8256, 10272], true) := by decide +kernel
  have hstep : (afterSteps ⟨.singleThread, LogicalPage.pageType, .deferred, false⟩ LogicalPage.laws threePages
      (keepsFlags ⟨.singleThread, LogicalPage.pageType, .deferred, false⟩)
      (emptiedBehindCursor.flatMap Call.actions)).map (fun sys =>
        (sys.perform ⟨.singleThread, LogicalPage.pageType, .deferred, false⟩ LogicalPage.laws
          .recycleFreeLogicalPages).map fun sys' => sys'.memory.released) =
      some (some [(12288, 4096)]) := by decide +kernel
  obtain ⟨sys, hsys, h, hstate⟩ := exists_afterSteps rfl (by decide) (by decide) refused_of_mem_calls hstate
  rw [hsys] at hstep
  simp only [Option.map_some, Option.some.injEq, Prod.mk.injEq] at hstate hstep
  obtain ⟨hlist, hout, hflag⟩ := hstate
  obtain ⟨sys', hp, hreleased⟩ := Option.map_eq_some_iff.mp hstep
  have hrun := h.mono fun _ _ hr hc =>
    (hr.inv fun _ _ hc => hc.routine).elim fun _ hg => hc.keepsFlags hg
  have hlists : sys.Lists [8192, 12288, 16384] := ⟨hlist, by decide⟩
  obtain ⟨l, hl, hempty, hrecycle⟩ :=
    @recyclable_pages_empty .singleThread .logicalPage .deferred false sys hrun
  obtain rfl : l = [8192, 12288, 16384] := hl.1.unique hlist hl.2 hlists.2
  obtain ⟨released, hu⟩ := hrecycle sys' hp
  exact ⟨sys, sys', hrun, hlists, hout, hflag, hempty 12288 (by decide) hflag, hp, released, hu, hreleased⟩

def afterCalls (cs : List Call) : Option System :=
  afterSteps ⟨.singleThread, LogicalPage.pageType, .deferred, false⟩ LogicalPage.laws twoChunks
    (fun _ _ => true) (cs.flatMap Call.actions)

theorem reachable_afterCalls {cs : List Call} {sys : System} (h : afterCalls cs = some sys) :
    Reachable ⟨.singleThread, LogicalPage.pageType, .deferred, false⟩ LogicalPage.laws Routine sys :=
  (reachable_afterSteps rfl (by decide) (by decide) refused_of_mem_calls h).mono fun _ _ _ hc => hc.routine

/-- The chunk of the second page is given back and taken again. -/
def emptiedAndReused : List Call :=
  [.allocate 4032, .allocate 4032, .deallocate ⟨12352, 4032⟩, .allocate 4032]

/-- The second page is emptied and used again, and is then released under its client. -/
theorem recyclable_page_in_use :
    ∃ sys sys', Reachable ⟨.singleThread, LogicalPage.pageType, .deferred, false⟩ LogicalPage.laws
        UntilDestroyed sys ∧
      sys.Lists [8192, 12288] ∧ (sys.memory.pages 12288).canBeRecycled = true ∧
      (sys.memory.pages 12288).usedSize = 4032 ∧
      sys.perform ⟨.singleThread, LogicalPage.pageType, .deferred, false⟩ LogicalPage.laws
        .recycleFreeLogicalPages = some sys' ∧
      sys'.memory.released = [(12288, 4096)] ∧ sys'.live = [⟨12352, 4032⟩, ⟨8256, 4032⟩] := by
  obtain ⟨sys, hsys⟩ := Option.isSome_iff_exists.mp
    (by decide +kernel : (afterCalls emptiedAndReused).isSome = true)
  have hlist : (afterCalls emptiedAndReused).map (fun sys =>
      (sys.segment.head, sys.memory.getNext 8192, sys.memory.getNext 12288)) =
      some (8192, 12288, 0) := by decide +kernel
  have hpage : (afterCalls emptiedAndReused).map (fun sys =>
      ((sys.memory.pages 12288).canBeRecycled, (sys.memory.pages 12288).usedSize)) =
      some (true, 4032) := by decide +kernel
  have hstep : ((afterCalls emptiedAndReused).bind fun sys =>
      (sys.perform ⟨.singleThread, LogicalPage.pageType, .deferred, false⟩ LogicalPage.laws
        .recycleFreeLogicalPages).map fun sys' => (sys'.memory.released, sys'.live)) =
      some ([(12288, 4096)], [⟨12352, 4032⟩, ⟨8256, 4032⟩]) := by decide +kernel
  rw [hsys] at hlist hpage hstep
  simp only [Option.map_some, Option.some.injEq, Prod.mk.injEq] at hlist hpage
  obtain ⟨sys', hp, hafter⟩ := Option.map_eq_some_iff.mp hstep
  simp only [Prod.mk.injEq] at hafter
  exact ⟨sys, sys', (reachable_afterCalls hsys).mono fun _ _ _ => .inl, ⟨hlist, by decide⟩, hpage.1, hpage.2,
    hp, hafter⟩

end Metamalloc.Segments
