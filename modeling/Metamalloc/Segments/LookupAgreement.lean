import Metamalloc.Segments.HonestArena

/-! The two ways to the page of a pointer: masking its address, and searching the page list. -/
namespace Metamalloc.Segments
open Library.Word64 Library.ByteMemory Library.LinkedList Pages

/-- A deferred recycling meets no page that is marked as unused and in use. -/
def RecyclesEmpty (sys : System) : Action → Prop
  | .recycleFreeLogicalPages => ∀ l, sys.Lists l → ∀ a ∈ l,
      (sys.memory.pages a).canBeRecycled = true → (sys.memory.pages a).usedSize = 0
  | _ => True

/-- The steps before the end of the segment that make no page over another one and release none in use. -/
structure KeepsPages (T : SegmentType) (sys : System) (action : Action) : Prop where
  untilDestroyed : UntilDestroyed sys action
  growsInFull : GrowsInFull T sys action
  recyclesEmpty : RecyclesEmpty sys action

section
variable {T : SegmentType} {L : PageLaws T.page} {sys sys' : System} {g : Ghost} {action : Action}
  {s : Segment} {mem : Memory} {l : List Nat} {owned : Nat → List Allocation} {a ptr : Nat}

theorem SystemInv.keepsPages (h : SystemInv T L sys g) (ha : sys.Allowed T action)
    (hc : KeepsPages T sys action) (hp : sys.perform T L action = some sys') :
    ∃ g', SystemInv T L sys' g' := by
  rcases hc.untilDestroyed with hroutine | rfl
  · obtain ⟨g', hg', _⟩ := step_ok h ha hroutine hp
    exact ⟨g', hg'⟩
  · have hmarked : MarkedEmpty sys.memory g.pages g.owned := fun a hal hr =>
      (h.segment.used_eq_zero hal).mp (hc.recyclesEmpty g.pages h.lists a hal hr)
    obtain ⟨s', mem', he, rfl⟩ := perform_recycleFree hp
    obtain ⟨released, l', hr⟩ := recycleFreeLogicalPages_spec h.segment hmarked he
    exact ⟨_, (h.recycled hr).1⟩

theorem Reachable.keepsPages (h : Reachable T L (KeepsPages T) sys) : ∃ g, SystemInv T L sys g := by
  induction h with
  | create hword hb hp _ h => exact ⟨_, create_inv hword hb hp h⟩
  | step _ ha hc hp ih =>
    obtain ⟨g, hg⟩ := ih
    exact hg.keepsPages ha hc hp

theorem TestedStep.keepsPages {test : System → Action → Bool} (h : TestedStep test sys action) :
    KeepsPages T sys action := by
  obtain ⟨hroutine, hrefused, _⟩ := h
  refine ⟨.inl hroutine, ?_, ?_⟩
  · cases action with
    | allocate size arena =>
      obtain rfl : arena = refusingArena := hrefused
      exact refusingArena_grantedInFull
    | finish arena =>
      obtain rfl : arena = refusingArena := hrefused
      exact fun _ _ _ _ => refusingArena_grantedInFull
    | _ => trivial
  · cases action with
    | recycleFreeLogicalPages => cases hroutine
    | _ => trivial

/-- Masking finds the page an address lies on, where pages start at multiples of their size. -/
theorem SegmentInv.mask_eq {k : Nat} (h : SegmentInv T L s mem l owned) (hsize : s.logicalPageSize = 2^k)
    (hdvd : s.logicalPageSize ∣ a) (ha : a ∈ l) (hlo : a ≤ ptr) (hhi : ptr < a + s.logicalPageSize) :
    Segment.getLogicalPageFromAddress ptr s.logicalPageSize = a := by
  have hinside := h.inside a ha
  have hword := h.geometry.word
  rw [hsize] at hdvd hhi hinside hword
  have hk : k ≤ 64 := ((Nat.pow_lt_pow_iff_right (by decide)).mp hword).le
  rw [Segment.getLogicalPageFromAddress, hsize]
  exact and_mask64_of_mem hk (by omega) hdvd hlo hhi

end

/-- Where no page was made over another one and none was released in use, both lookups take a
pointer to the listed page it lies on, and both deallocations end in the same state. -/
theorem aligned_lookup_agrees {concurrency : ConcurrencyPolicy} {kind : PageKind}
    {recycling : PageRecyclingPolicy} {aligned : Bool} {sys : System}
    (h : HonestRun ⟨concurrency, kind.pageType, recycling, aligned⟩ kind.laws
      (KeepsPages ⟨concurrency, kind.pageType, recycling, aligned⟩) sys)
    (hsize : ∃ k, sys.segment.logicalPageSize = 2^k)
    (hpages : ∀ l, sys.Lists l → ∀ a ∈ l, sys.segment.logicalPageSize ∣ a) :
    ∃ l, sys.Lists l ∧ ∀ p ∈ sys.pointersOut, ∃ a ∈ l,
      onPage sys.segment.logicalPageSize a p = true ∧
      Segment.getLogicalPageFromAddress p sys.segment.logicalPageSize = a ∧
      Segment.findLogicalPage sys.segment.logicalPageSize p sys.memory walkLimit sys.segment.head = some a ∧
      ∃ s' mem',
        Segment.deallocateFromAlignedLogicalPage ⟨concurrency, kind.pageType, recycling, aligned⟩ p
          sys.segment sys.memory = some (s', mem') ∧
        Segment.deallocateBySearch ⟨concurrency, kind.pageType, recycling, aligned⟩ p
          sys.segment sys.memory = some (s', mem') := by
  obtain ⟨g, hg⟩ := (h.reachable fun _ _ hc => hc.growsInFull).keepsPages
  obtain ⟨k, hk⟩ := hsize
  refine ⟨g.pages, hg.lists, fun p hp => ?_⟩
  obtain ⟨a, ha, x, hx, rfl, hon⟩ := hg.out_on_page hp
  have hin := hg.segment.owned_inside hx
  have hlo : a ≤ x.ptr := by omega
  have hhi : x.ptr < a + sys.segment.logicalPageSize := by omega
  have hmask := hg.segment.mask_eq hk (hpages _ hg.lists a ha) ha hlo hhi
  have hfind := hg.segment.findLogicalPage ha hlo hhi
  obtain ⟨s', mem', _, _, _, he, _⟩ := hg.deallocateInternal hx (hg.segment.frees_self hx)
  refine ⟨a, ha, hon, hmask, hfind, s', mem', ?_, ?_⟩
  · rw [Segment.deallocateFromAlignedLogicalPage, hmask]
    exact he
  · rw [Segment.deallocateBySearch, hfind]
    exact (if_neg (hg.segment.listed.ne_zero ha)).trans he

theorem aligned_lookup_agrees_of_one :
    ∃ sys, HonestRun oneChunkType LogicalPage.laws (KeepsPages oneChunkType) sys ∧
      12352 ∈ sys.pointersOut ∧
      ∃ s' mem', Segment.deallocateFromAlignedLogicalPage oneChunkType 12352 sys.segment sys.memory =
          some (s', mem') ∧
        Segment.deallocateBySearch oneChunkType 12352 sys.segment sys.memory = some (s', mem') := by
  obtain ⟨sys, hsys⟩ := Option.isSome_iff_exists.mp (by decide +kernel : oneChunkTaken.isSome = true)
  have hstate : oneChunkTaken.map (fun sys => (sys.segment.logicalPageSize, sys.pointersOut)) =
      some (4096, [12352]) := by decide +kernel
  rw [hsys] at hstate
  simp only [Option.map_some, Option.some.injEq, Prod.mk.injEq] at hstate
  have hrun : HonestRun oneChunkType LogicalPage.laws (KeepsPages oneChunkType) sys :=
    honestRun_oneChunkTaken (fun _ => ⟨.inl trivial, refusingArena_grantedInFull, trivial⟩) hsys
  have hout : 12352 ∈ sys.pointersOut := by rw [hstate.2]; exact List.mem_singleton_self _
  have hpages : ∀ l, sys.Lists l → ∀ a ∈ l, sys.segment.logicalPageSize ∣ a := by
    intro l hl a ha
    obtain rfl := hl.1.unique (oneChunkTaken_lists hsys).1 hl.2 (by decide)
    rw [hstate.1, List.mem_singleton.mp ha]
    decide
  obtain ⟨l, _, hagree⟩ := @aligned_lookup_agrees .singleThread .logicalPage .immediate true sys hrun
    ⟨12, hstate.1⟩ hpages
  obtain ⟨a, _, _, _, _, hresult⟩ := hagree 12352 hout
  exact ⟨sys, hrun, hout, hresult⟩

/-- After a growth granted by its second request, the search misses a page that masking finds. -/
theorem grown_page_not_found :
    ∃ sys, HonestRun oneChunkType LogicalPage.laws UntilDestroyed sys ∧
      (sys.segment.logicalPageSize = 2^12 ∧ ∀ l, sys.Lists l → ∀ a ∈ l, 2^12 ∣ a) ∧
      ⟨8256, 4032⟩ ∈ sys.live ∧
      ∃ s' mem', Segment.deallocateFromAlignedLogicalPage oneChunkType 8256 sys.segment sys.memory =
          some (s', mem') ∧
        Segment.deallocateBySearch oneChunkType 8256 sys.segment sys.memory =
          some (sys.segment, sys.memory) ∧
        (mem'.pages 8192).usedSize = 0 ∧ (sys.memory.pages 8192).usedSize = 4032 := by
  obtain ⟨sys, hsys⟩ := Option.isSome_iff_exists.mp (by decide +kernel : grownOverPage.isSome = true)
  have hstate : grownOverPage.map (fun sys => ((sys.segment.logicalPageSize, sys.segment.head,
      sys.memory.getNext 12288), decide (⟨8256, 4032⟩ ∈ sys.live), (sys.memory.pages 8192).usedSize)) =
      some ((2^12, 12288, 0), true, 4032) := by decide +kernel
  have hmask : (grownOverPage.bind fun sys => (Segment.deallocateFromAlignedLogicalPage oneChunkType 8256
      sys.segment sys.memory).map fun r => (r.2.pages 8192).usedSize) = some 0 := by
    decide +kernel
  rw [hsys] at hstate hmask
  simp only [Option.map_some, Option.some.injEq, Prod.mk.injEq, decide_eq_true_eq] at hstate
  obtain ⟨⟨hsize, hhead, hnext⟩, hlive, hused⟩ := hstate
  obtain ⟨⟨s', mem'⟩, he, hfreed⟩ := Option.map_eq_some_iff.mp hmask
  have hpages : ∀ l, sys.Lists l → ∀ a ∈ l, 2^12 ∣ a := by
    intro l hl a ha
    obtain rfl : l = [12288] := hl.1.unique ⟨hhead, hnext⟩ hl.2 (by decide)
    rw [List.mem_singleton.mp ha]
    decide
  refine ⟨sys, honestRun_grownOverPage (fun _ _ => .inl trivial) hsys, ⟨hsize, hpages⟩, hlive, s', mem', he, ?_,
    hfreed, hused⟩
  have hfind : Segment.findLogicalPage (2^12) 8256 sys.memory walkLimit sys.segment.head = some 0 := by
    refine SegmentInv.findLogicalPage_eq_zero (l := [12288]) ⟨hhead, hnext⟩ (by decide) ?_ ?_
    · decide +kernel
    · unfold walkLimit
      decide
  rw [Segment.deallocateBySearch, hsize, hfind]
  rfl

end Metamalloc.Segments
