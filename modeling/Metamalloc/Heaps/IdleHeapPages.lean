import Metamalloc.Heaps.HeapRuns
import Metamalloc.Segments.IdlePages

/-! The pages without an allocation that a heap keeps, segment by segment. -/
namespace Metamalloc.Heaps
open Library.Word64 Library.ByteMemory Library.LinkedList Pages Segments

/-- A page in addition serves the request: every small one, and the big ones that it has room for. -/
def OnePageServes (sys : HeapSystem) : HeapAction → Prop
  | .allocate size _ => (SimpleHeapPow2.requestTarget size).1 = .big → FitsFreshPage sys.heap.bigObjectBin size
  | _ => True

def HeapRunsTo (H : HeapType) (condition : HeapSystem → HeapAction → Prop) : HeapSystem → HeapSystem → Prop :=
  Relation.ReflTransGen fun sys sys' =>
    ∃ action, sys.Allowed action ∧ condition sys action ∧ sys.perform H action = some sys'

section
variable {H : HeapType} {sys sys' : HeapSystem} {g g' : SegmentId → Ghost} {x : Grant} {size : Nat}
  {arena : ArenaAnswers} {action : HeapAction}

structure HeapKeepsIdle (sys sys' : HeapSystem) : Prop where
  idle : ∀ id l l', sys.Lists id l → sys'.Lists id l' →
    idlePages sys'.memory l' ≤ max (idlePages sys.memory l) (sys.heap.segment id).pageRecyclingThreshold
  config : ∀ id, (sys'.heap.segment id).toSegmentConfig = (sys.heap.segment id).toSegmentConfig

theorem idle_eq {heap : SimpleHeapPow2} {mem : Memory} {live : List Grant} {held : SegmentId → List Allocation}
    (h : FamilyInv H.segmentType H.laws (fun _ => True) heap.segment mem held g) {id : SegmentId} {l : List Nat}
    (hl : HeapSystem.Lists ⟨heap, mem, live⟩ id l) : idlePages mem l = (g id).idle := by
  have hsystem := h.system id trivial
  obtain rfl := hsystem.eq_of_lists hl
  exact hsystem.segment.idlePages_eq

theorem HeapKeepsIdle.of_segment {s' : Segment} {mem' : Memory} {live' : List Grant} {id : SegmentId} {g' : Ghost}
    {held held' : SegmentId → List Allocation}
    (h : FamilyInv H.segmentType H.laws (fun _ => True) sys.heap.segment sys.memory held g)
    (h' : FamilyInv H.segmentType H.laws (fun _ => True) (sys.heap.setSegment id s').segment mem' held'
      (Function.update g id g'))
    (hconfig : s'.toSegmentConfig = (sys.heap.segment id).toSegmentConfig)
    (hidle : g'.idle ≤ max (g id).idle (sys.heap.segment id).pageRecyclingThreshold) :
    HeapKeepsIdle sys ⟨sys.heap.setSegment id s', mem', live'⟩ := by
  refine ⟨fun id' l l' hl hl' => ?_, fun id' => ?_⟩
  · rw [idle_eq h' hl', idle_eq h hl]
    by_cases hid : id' = id
    · subst hid
      rwa [Function.update_self]
    · rw [Function.update_of_ne hid]
      exact le_max_left ..
  · dsimp only
    rw [segment_setSegment]
    by_cases hid : id' = id
    · subst hid
      rw [Function.update_self, hconfig]
    · rw [Function.update_of_ne hid]

namespace HeapSystemInv

theorem granularityAligned (h : HeapSystemInv H sys g) (harena : sys.FreshAnswers arena) :
    GranularityAligned arena := by
  intro n
  by_cases h0 : arena.request n = 0
  · rw [h0]
  · exact Nat.mod_eq_zero_of_dvd (h.inv.granularity.trans (harena n h0).aligned)

theorem allocate_keepsIdle (h : HeapSystemInv H sys g) (hdirect : H.concurrency ≠ .threadLocal)
    (harena : sys.FreshAnswers arena) (hserves : OnePageServes sys (.allocate size arena))
    (hp : sys.perform H (.allocate size arena) = some sys') : HeapKeepsIdle sys sys' := by
  obtain ⟨_, hadjusted, h0, hclass⟩ := requestTarget_spec size
  have hfits : (SimpleHeapPow2.requestTarget size).1 = .big →
      FitsFreshPage sys.heap.bigObjectBin (SimpleHeapPow2.requestTarget size).2 := by
    intro hbig
    rcases requestTarget_cases size with ⟨i, hsmall, -⟩ | ⟨hsize, -⟩
    · rw [hsmall] at hbig
      cases hbig
    · rw [hsize]
      exact hserves hbig
  simp only [HeapSystem.perform, SimpleHeapPow2.allocate] at hp
  generalize (SimpleHeapPow2.requestTarget size).1 = id at hp hclass hfits
  generalize (SimpleHeapPow2.requestTarget size).2 = adjusted at hp h0 hclass hfits
  have hpolicy : (H.segmentType id).concurrency ≠ .threadLocal := by cases id <;> exact hdirect
  obtain ⟨ret, s', mem', g', he, hfamily, hconfig, ho, -⟩ := h.inv.family.allocate_direct trivial hpolicy
    (fun _ => h0) (h.arenaServes harena hclass) (fun c hc => h.mapped hc) h.inv.granularity
    (h.inv.aligned_dvd id)
  rw [he] at hp
  cases hp
  refine .of_segment h.inv.family (segment_setSegment ▸ hfamily) hconfig (le_max_of_le_left ?_)
  have hpromise : ArenaPromise (H.segmentType id) (sys.heap.segment id) (g id).pages arena adjusted :=
    (h.arenaServes harena hclass).promise (fun c hc => h.mapped ⟨id, trivial, hc⟩) (h.segmentInv id).pageSize_pos
      (h.inv.aligned_dvd id)
  rw [Segment.allocate, if_neg hpolicy] at he
  cases id with
  | small i =>
    have ho' : AllocateOutcome ⟨H.concurrency, PageKind.logicalPage.pageType, H.recycling, true⟩
      PageKind.logicalPage.laws arena adjusted _ _ _ _ _ _ _ _ _ := ho
    refine ho'.idle_le (h.segmentInv (.small i)) (h.growCoefficient (.small i)) (fun _ => hpromise) (fun _ => ?_) he
    exact ⟨h.granularityAligned harena, fun hany => (by cases hany)⟩
  | big =>
    have ho' : AllocateOutcome ⟨H.concurrency, (PageKind.logicalPageAnySize H.coalescing).pageType, H.recycling, false⟩
      (PageKind.logicalPageAnySize H.coalescing).laws arena adjusted _ _ _ _ _ _ _ _ _ := ho
    refine ho'.idle_le (h.segmentInv .big) (h.growCoefficient .big) (fun _ => hpromise) (fun _ => ?_) he
    exact ⟨h.granularityAligned harena, fun _ => hfits rfl⟩

theorem deallocate_keepsIdle (h : HeapSystemInv H sys g) (hdirect : H.concurrency ≠ .threadLocal)
    (himmediate : H.recycling = .immediate) (hx : x ∈ sys.live) (hp : sys.perform H (.deallocate x) = some sys') :
    HeapKeepsIdle sys sys' := by
  have hpolicy : (H.segmentType x.segment).concurrency ≠ .threadLocal := by cases x.segment <;> exact hdirect
  have hrecycling : (H.segmentType x.segment).recycling = .immediate := by cases x.segment <;> exact himmediate
  have hxa := (h.taken x hx).1
  have hfrees := (h.segmentInv x.segment).frees_self hxa
  have htarget : SimpleHeapPow2.pointerTarget H x.ptr sys.heap sys.memory = some x.segment :=
    h.inv.pointerTarget_eq hdirect ((h.segmentInv x.segment).mem_of_owned hxa)
      (Nat.le_of_add_right_le hfrees.behind) hfrees.onPage
  obtain ⟨s', mem', g', rest, he, -, hinv, hperm, howned, hf⟩ :=
    Segments.deallocate_direct hpolicy (h.inv.system x.segment) (mem_liveAt hx) hxa hfrees
  have hfamily := h.inv.family.update_listed trivial hinv hf.touches
  rw [← segment_setSegment] at hfamily
  rw [HeapSystem.perform, deallocate_of_target htarget he] at hp
  cases hp
  refine .of_segment h.inv.family hfamily hf.config ?_
  rw [Ghost.idle, howned]
  exact hf.idle_le (h.segmentInv x.segment) hperm hrecycling

theorem perform_keepsIdle (h : HeapSystemInv H sys g) (hdirect : H.concurrency ≠ .threadLocal)
    (himmediate : H.recycling = .immediate) (ha : sys.Allowed action) (hserves : OnePageServes sys action)
    (hp : sys.perform H action = some sys') : HeapKeepsIdle sys sys' := by
  cases action with
  | allocate size arena => exact h.allocate_keepsIdle hdirect ha hserves hp
  | deallocate x => exact h.deallocate_keepsIdle hdirect himmediate ha hp
  | store address value =>
    cases hp
    refine ⟨fun id l l' hl hl' => ?_, fun _ => rfl⟩
    obtain rfl := hl'.1.unique hl.1 hl'.2 hl.2
    exact le_max_left ..

end HeapSystemInv

end

/-- However long a heap runs, no segment of it has more pages without an allocation than its threshold, or than it
had at first. -/
theorem heap_idle_pages_bounded {H : HeapType} {sys₀ sys : HeapSystem} {id : SegmentId} {l₀ : List Nat}
    (hdirect : H.concurrency ≠ .threadLocal) (himmediate : H.recycling = .immediate) (h₀ : HeapReachable H sys₀)
    (hl₀ : sys₀.Lists id l₀) (hrun : HeapRunsTo H OnePageServes sys₀ sys) :
    ∃ l, sys.Lists id l ∧
      idlePages sys.memory l ≤ max (idlePages sys₀.memory l₀) (sys₀.heap.segment id).pageRecyclingThreshold := by
  suffices hall : HeapReachable H sys ∧
      (sys.heap.segment id).toSegmentConfig = (sys₀.heap.segment id).toSegmentConfig ∧
      ∀ l, sys.Lists id l → idlePages sys.memory l ≤
        max (idlePages sys₀.memory l₀) (sys₀.heap.segment id).pageRecyclingThreshold by
    obtain ⟨g, hg⟩ := hall.1.inv hdirect
    exact ⟨(g id).pages, hg.lists id, hall.2.2 _ (hg.lists id)⟩
  induction hrun with
  | refl =>
    refine ⟨h₀, rfl, fun l hl => ?_⟩
    obtain rfl := hl.1.unique hl₀.1 hl.2 hl₀.2
    exact le_max_left ..
  | tail _ hstep ih =>
    obtain ⟨hreach, hconfig, hidle⟩ := ih
    obtain ⟨action, ha, hserves, hp⟩ := hstep
    obtain ⟨g, hg⟩ := hreach.inv hdirect
    have hkeeps := hg.perform_keepsIdle hdirect himmediate ha hserves hp
    refine ⟨hreach.step ha hp, (hkeeps.config id).trans hconfig, fun l hl => ?_⟩
    have hstep := hkeeps.idle id _ l (hg.lists id) hl
    rw [hconfig] at hstep
    exact hstep.trans (max_le (hidle _ (hg.lists id)) (le_max_right ..))

/-- A heap of one page for each bin gives its big allocation back. -/
theorem heap_idle_pages_bounded_of_three : ∃ sys₀ sys l₀ l,
    HeapRunsTo singleThreadHeap OnePageServes sys₀ sys ∧ sys₀.Lists .big l₀ ∧ sys.Lists .big l ∧
      idlePages sys.memory l ≤
        max (idlePages sys₀.memory l₀) (sys₀.heap.segment .big).pageRecyclingThreshold := by
  have he : (afterRequests [100, 3000, 16]).map HeapSystem.live =
      some [⟨1052656, 16, .small 0, 1048576⟩, ⟨1081424, 3000, .big, 1081344⟩,
        ⟨1064768, 100, .small 3, 1060864⟩] := by decide +kernel
  obtain ⟨sys₀, h, hlive⟩ := Option.map_eq_some_iff.mp he
  have h₀ := reachable_afterRequests h
  obtain ⟨g₀, hg₀⟩ := h₀.inv (by decide)
  have hallowed : sys₀.Allowed (.deallocate ⟨1081424, 3000, .big, 1081344⟩) := by
    rw [HeapSystem.Allowed, hlive]
    decide
  obtain ⟨sys, _, hp, -⟩ := hg₀.perform_ok (by decide) hallowed
  have hrun : HeapRunsTo singleThreadHeap OnePageServes sys₀ sys := .single ⟨_, hallowed, trivial, hp⟩
  obtain ⟨l, hl, hidle⟩ := heap_idle_pages_bounded (by decide) rfl h₀ (hg₀.lists .big) hrun
  exact ⟨sys₀, sys, _, l, hrun, hg₀.lists .big, hl, hidle⟩

end Metamalloc.Heaps
