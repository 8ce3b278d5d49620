import Metamalloc.Allocator.DeallocationRouting
import Metamalloc.Allocator.HeapSlots
import Metamalloc.Segments.SegmentDestruction

/-! The end of the allocator. The destructor drains and destroys the heaps of the threads, unless a
fast shutdown was asked for; the members follow, of which the central heap gives pages back. -/
namespace Metamalloc.Allocator
open Library.Word64 Library.ByteMemory Library.LinkedList Pages Segments Heaps ScalableAllocator

namespace ScalableAllocator

/-- The destructor after a successful `create`, and those of the members. -/
def destructor (A : AllocatorType) (fastShutdown : Bool) (a : ScalableAllocator) (mem : Memory) :
    Option (ScalableAllocator × Memory) :=
  match if fastShutdown then some (a, mem) else destroyHeaps A a mem with
  | none => none
  | some (a, mem) => (SimpleHeapPow2.destroy A.centralHeap a.centralHeap mem).map fun (heap, mem) =>
      ({ a with centralHeap := heap }, mem)

def EndsHeap (fastShutdown : Bool) (a : ScalableAllocator) : Option Nat → Prop
  | none => True
  | some i => fastShutdown = false ∧ i < a.getCreatedHeapCount

end ScalableAllocator

def Idle (heap : SimpleHeapPow2) : Prop := ∀ id, (heap.segment id).deallocationQueue = []

section
variable {A : AllocatorType} {a : ScalableAllocator} {mem : Memory} {live : Option Nat × SegmentId → List Allocation}
  {g : Option Nat × SegmentId → Ghost} {created : Option Nat × SegmentId → Prop} {o : Option Nat}
  {ids : List SegmentId}

/-- The segments of a heap are destroyed one after the other. -/
theorem destroySegments_ok (h : FamilyInv A.segmentType A.laws created a.segmentAt mem live g)
    (hnodup : ids.Nodup) (hcreated : ∀ id ∈ ids, created (o, id))
    (hidle : (A.heapType o).concurrency ≠ .threadLocal →
      ∀ id ∈ ids, ((a.heapAt o).segment id).deallocationQueue = []) :
    ∃ heap' mem', SimpleHeapPow2.destroySegments (A.heapType o) ids (a.heapAt o) mem = some (heap', mem') ∧
      MembersDestroyed A.segmentType A.laws created a.segmentAt mem live g (ids.map fun id => (o, id))
        (a.setHeapAt o heap').segmentAt mem' := by
  induction ids generalizing a mem created with
  | nil =>
    refine ⟨_, _, rfl, ?_⟩
    rw [setHeapAt_self]
    exact h.destroyed_nil
  | cons id rest ih =>
    obtain ⟨hid, hrest⟩ := List.nodup_cons.mp hnodup
    have hfirst : created (o, id) := hcreated id List.mem_cons_self
    have hpolicy : (A.segmentType (o, id)).concurrency ≠ .threadLocal →
        (a.segmentAt (o, id)).deallocationQueue = [] := by
      intro hne
      have hheap : (A.heapType o).concurrency ≠ .threadLocal := by cases id <;> exact hne
      exact hidle hheap id List.mem_cons_self
    obtain ⟨s', mem₁, he, hr⟩ := (h.system (o, id) hfirst).destroy hpolicy
    have hothers : ∀ q, q ≠ (o, id) → (a.setSegmentAt (o, id) s').segmentAt q = a.segmentAt q := fun q hq => by
      rw [segmentAt_setSegmentAt, Function.update_of_ne hq]
    have hone := h.destroyed_one hfirst hr hothers
    have hnew : ∀ id' ∈ rest, created (o, id') ∧ (o, id') ∉ [(o, id)] := by
      intro id' hid'
      refine ⟨hcreated id' (List.mem_cons_of_mem _ hid'), fun hsame => hid ?_⟩
      cases List.mem_singleton.mp hsame
      exact hid'
    have hheap : (a.setSegmentAt (o, id) s').heapAt o = (a.heapAt o).setSegment id s' := heapAt_setHeapAt_self
    obtain ⟨heap', mem', he', hall⟩ := ih hone.family hrest hnew fun hne id' hid' => by
      rw [hheap, SimpleHeapPow2.segment_setSegment_of_ne (ne_of_mem_of_not_mem hid' hid)]
      exact hidle hne id' (List.mem_cons_of_mem _ hid')
    refine ⟨heap', mem', ?_, ?_⟩
    · have he : Segment.destroy ((A.heapType o).segmentType id) ((a.heapAt o).segment id) mem = some (s', mem₁) := he
      rw [SimpleHeapPow2.destroySegments, he]
      dsimp only
      rw [← hheap]
      exact he'
    · rw [setSegmentAt, setHeapAt_setHeapAt] at hall
      refine hone.trans h hall fun j hj => ?_
      obtain ⟨id', hid', rfl⟩ := List.mem_map.mp hj
      exact hnew id' hid'

def segmentsOf (o : Option Nat) : List (Option Nat × SegmentId) :=
  (SegmentId.big :: (List.finRange smallObjectBinCount).reverse.map .small).map fun id => (o, id)

theorem mem_segmentsOf {p : Option Nat × SegmentId} : p ∈ segmentsOf o ↔ p.1 = o := by
  constructor
  · intro hp
    obtain ⟨id, -, rfl⟩ := List.mem_map.mp hp
    rfl
  · obtain ⟨o', id⟩ := p
    rintro rfl
    refine List.mem_map.mpr ⟨id, ?_, rfl⟩
    cases id with
    | small i => simp
    | big => exact List.mem_cons_self

theorem nodup_segmentsOf : (segmentsOf o).Nodup := by
  have hbins : ((List.finRange smallObjectBinCount).reverse.map SegmentId.small).Nodup :=
    (List.nodup_reverse.mpr (List.nodup_finRange _)).map fun _ _ he => SegmentId.small.inj he
  refine List.Nodup.map (fun _ _ he => congrArg Prod.snd he) (List.nodup_cons.mpr ⟨by simp, hbins⟩)

theorem destroyHeap_ok (h : FamilyInv A.segmentType A.laws created a.segmentAt mem live g)
    (hcreated : ∀ id, created (o, id)) (hidle : (A.heapType o).concurrency ≠ .threadLocal → Idle (a.heapAt o)) :
    ∃ heap' mem', SimpleHeapPow2.destroy (A.heapType o) (a.heapAt o) mem = some (heap', mem') ∧
      MembersDestroyed A.segmentType A.laws created a.segmentAt mem live g (segmentsOf o)
        (a.setHeapAt o heap').segmentAt mem' := by
  have hnodup : (SegmentId.big :: (List.finRange smallObjectBinCount).reverse.map SegmentId.small).Nodup :=
    List.Nodup.of_map _ (nodup_segmentsOf (o := o))
  exact destroySegments_ok h hnodup (fun id _ => hcreated id) fun hne id _ => hidle hne id

def Blank (heap : SimpleHeapPow2) : Prop := ∀ id, heap.segment id = {}

theorem destroy_blankSegment {T : SegmentType} : Segment.destroy T {} mem = some ({}, mem) := by
  obtain ⟨n, hn⟩ := Segment.walkLimit_eq
  have hrelease : Segment.releasePages {} mem = some ({}, mem) := by
    rw [Segment.releasePages, hn, Segment.sweep]
    rfl
  have hprocess : Segment.processDeallocationQueue T false {} mem = some (0, {}, mem) := rfl
  rw [Segment.destroy]
  split
  · rw [hprocess]
    exact hrelease
  · exact hrelease

theorem destroySegments_blank {H : HeapType} {heap : SimpleHeapPow2} (h : Blank heap) :
    SimpleHeapPow2.destroySegments H ids heap mem = some (heap, mem) := by
  induction ids with
  | nil => rfl
  | cons id rest ih =>
    have hself : heap.setSegment id {} = heap := h id ▸ SimpleHeapPow2.setSegment_segment id
    rw [SimpleHeapPow2.destroySegments, h id, destroy_blankSegment]
    dsimp only
    rw [hself]
    exact ih

def Filled (built : Nat → Prop) (slots : List Nat) (members : List (Option Nat × SegmentId)) : Prop :=
  members.Nodup ∧ ∀ p, p ∈ members ↔ ∃ i ∈ slots, p.1 = some i ∧ built i

theorem destroyLocalHeaps_ok {built : Nat → Prop} {slots : List Nat}
    (h : FamilyInv A.segmentType A.laws created a.segmentAt mem live g)
    (hpolicy : A.localHeap.concurrency = .threadLocal) (hnodup : slots.Nodup)
    (hbuilt : ∀ i ∈ slots, built i → ∀ id, created (some i, id))
    (hblank : ∀ i ∈ slots, ¬ built i → Blank (a.localHeaps i)) :
    ∃ members a' mem', Filled built slots members ∧ destroyLocalHeaps A slots a mem = some (a', mem') ∧
      a'.centralHeap = a.centralHeap ∧
      MembersDestroyed A.segmentType A.laws created a.segmentAt mem live g members a'.segmentAt mem' := by
  induction slots generalizing a mem created with
  | nil => exact ⟨[], a, mem, ⟨List.nodup_nil, by simp⟩, rfl, rfl, h.destroyed_nil⟩
  | cons i rest ih =>
    obtain ⟨hi, hrest⟩ := List.nodup_cons.mp hnodup
    by_cases hfirst : built i
    · obtain ⟨heap', mem₁, he, hone⟩ := destroyHeap_ok (o := some i) h (hbuilt i List.mem_cons_self hfirst)
        fun hne => absurd hpolicy hne
      have hne : ∀ j ∈ rest, j ≠ i := fun j hj => ne_of_mem_of_not_mem hj hi
      have hheaps : ∀ j ∈ rest, (a.setLocalHeap i heap').localHeaps j = a.localHeaps j :=
        fun j hj => Function.update_of_ne (hne j hj) ..
      obtain ⟨members, a', mem', ⟨hmembers, hin⟩, he', hcentral, hall⟩ := ih (a := a.setLocalHeap i heap')
        hone.family hrest
        (fun j hj hb id => ⟨hbuilt j (List.mem_cons_of_mem _ hj) hb id, fun hmem =>
          hne j hj (Option.some.inj (mem_segmentsOf.mp hmem))⟩)
        (fun j hj hb => hheaps j hj ▸ hblank j (List.mem_cons_of_mem _ hj) hb)
      have hlater : ∀ p ∈ members, created p ∧ p ∉ segmentsOf (some i) := by
        intro p hp
        obtain ⟨j, hj, hpj, hb⟩ := (hin p).mp hp
        obtain ⟨o, id⟩ := p
        cases hpj
        exact ⟨hbuilt j (List.mem_cons_of_mem _ hj) hb id, fun hmem =>
          hne j hj (Option.some.inj (mem_segmentsOf.mp hmem))⟩
      refine ⟨segmentsOf (some i) ++ members, a', mem', ⟨?_, fun p => ?_⟩, ?_, hcentral,
        hone.trans h hall hlater⟩
      · exact nodup_segmentsOf.append hmembers fun p hp hp' => (hlater p hp').2 hp
      · simp only [List.mem_append, mem_segmentsOf, hin, List.exists_mem_cons_iff]
        constructor
        · rintro (hp | hp)
          · exact .inl ⟨hp, hfirst⟩
          · exact .inr hp
        · rintro (hp | hp)
          · exact .inl hp.1
          · exact .inr hp
      · have he : SimpleHeapPow2.destroy A.localHeap (a.localHeaps i) mem = some (heap', mem₁) := he
        rw [destroyLocalHeaps, he]
        exact he'
    · have hnone := hblank i List.mem_cons_self hfirst
      have he : SimpleHeapPow2.destroy A.localHeap (a.localHeaps i) mem = some (a.localHeaps i, mem) :=
        destroySegments_blank hnone
      have hself : a.setLocalHeap i (a.localHeaps i) = a := setHeapAt_self (o := some i)
      obtain ⟨members, a', mem', ⟨hmembers, hin⟩, he', hcentral, hall⟩ := ih h hrest
        (fun j hj => hbuilt j (List.mem_cons_of_mem _ hj)) (fun j hj => hblank j (List.mem_cons_of_mem _ hj))
      refine ⟨members, a', mem', ⟨hmembers, fun p => ?_⟩, ?_, hcentral, hall⟩
      · rw [hin, List.exists_mem_cons_iff]
        exact ⟨.inr, fun hp => hp.resolve_left fun hb => hfirst hb.2⟩
      · rw [destroyLocalHeaps, he]
        dsimp only
        rw [hself]
        exact he'

end

/-- A heap that gets its buffer can be created. -/
def CompletesHeaps (A : AllocatorType) (sys : AllocatorSystem) : AllocatorAction → Prop
  | .getThreadLocalHeap _ answers => answers.request (heapBytes sys.allocator.localHeapCreationParams) ≠ 0 →
      ∀ a mem, createLocalHeap A answers sys.allocator.activeLocalHeapCount sys.allocator sys.memory ≠
        some (none, a, mem)
  | _ => True

def EndsOrderly (A : AllocatorType) (sys : AllocatorSystem) (action : AllocatorAction) : Prop :=
  sys.KeepsIntervals A action ∧ CompletesHeaps A sys action

/-- The invariant of a run with what the destructor relies on. -/
structure Ready (A : AllocatorType) (params : CreationParams) (sys : AllocatorSystem) (built : Nat → Prop)
    (g : Option Nat × SegmentId → Ghost) : Prop extends RunInv A params sys built g where
  blank : ∀ i, ¬ built i → Blank (sys.allocator.localHeaps i)
  idle : Idle sys.allocator.centralHeap

section
variable {H : HeapType} {heap heap' : SimpleHeapPow2} {mem mem' : Memory} {queueMemory : SegmentId → Bool}
  {params : HeapCreationParams}

theorem Idle.setSegment {s' : Segment} (id : SegmentId) (h : Idle heap)
    (hs : s'.deallocationQueue = (heap.segment id).deallocationQueue) : Idle (heap.setSegment id s') := by
  intro id'
  by_cases hid : id' = id
  · subst hid
    rw [SimpleHeapPow2.segment_setSegment_self, hs]
    exact h id'
  · rw [SimpleHeapPow2.segment_setSegment_of_ne hid]
    exact h id'

theorem createBins_idle {ids : List (Fin smallObjectBinCount)} {bufferIndex sizeClass index : Nat} {ok : Bool}
    (hidle : Idle heap)
    (h : SimpleHeapPow2.createBins H params queueMemory ids bufferIndex sizeClass heap mem =
      some (ok, index, heap', mem')) : Idle heap' := by
  induction ids generalizing bufferIndex sizeClass heap mem with
  | nil =>
    cases h
    exact hidle
  | cons i rest ih =>
    rw [SimpleHeapPow2.createBins] at h
    split at h
    · cases h
    · rename_i s₁ mem₁ hcreate
      cases h
      exact hidle.setSegment (.small i) (segmentCreate_queue hcreate)
    · rename_i s₁ mem₁ hcreate
      exact ih (hidle.setSegment (.small i) (segmentCreate_queue hcreate)) h

theorem create_idle {alignment : Nat} {request : Nat → Nat} {ok : Bool} (hidle : Idle heap)
    (h : SimpleHeapPow2.create H params alignment request queueMemory heap mem = some (ok, heap', mem')) :
    Idle heap' := by
  unfold SimpleHeapPow2.create at h
  split at h
  · cases h
    exact hidle
  split at h
  · cases h
    exact hidle
  dsimp only at h
  have hempty : ∀ id, (SimpleHeapPow2.segment { heap with
      smallObjectLogicalPageSize := params.smallObjectLogicalPageSize
      bigObjectLogicalPageSize := params.bigObjectLogicalPageSize
      bufferLength := SimpleHeapPow2.calculateRequiredBufferSize params
      bufferAddress := request (SimpleHeapPow2.calculateRequiredBufferSize params) } id).deallocationQueue = [] := by
    intro id
    cases id with
    | small i => exact hidle (.small i)
    | big => exact hidle .big
  split at h
  · cases h
  · rename_i hbins
    cases h
    exact createBins_idle hempty hbins
  · rename_i hbins
    obtain ⟨⟨ok', s₁, mem₁⟩, hcreate, he⟩ := Option.map_eq_some_iff.mp h
    cases he
    exact (createBins_idle hempty hbins).setSegment .big (segmentCreate_queue hcreate)

theorem create_refused {alignment : Nat} {request : Nat → Nat} {ok : Bool}
    (hrequest : request (SimpleHeapPow2.calculateRequiredBufferSize params) = 0)
    (h : SimpleHeapPow2.create H params alignment request queueMemory {} mem = some (ok, heap', mem')) :
    Blank heap' := by
  have hnew : Blank {} := fun id => by cases id <;> rfl
  unfold SimpleHeapPow2.create at h
  split at h
  · cases h
    exact hnew
  split at h
  · cases h
    exact hnew
  dsimp only at h
  rw [show List.finRange smallObjectBinCount = 0 :: (List.finRange smallObjectBinCount).tail from rfl,
    createBins_null hrequest] at h
  cases h
  intro id
  refine (congrArg (fun heap => heap.segment id) (SimpleHeapPow2.setSegment_segment (.small 0))).trans ?_
  cases id <;> rfl

end

section
variable {A : AllocatorType} {params : CreationParams} {creation : CreationAnswers}
  {sys sys' : AllocatorSystem} {built : Nat → Prop} {g g' : Option Nat × SegmentId → Ghost}
  {action : AllocatorAction}

/-- The cached heaps that were made, and nothing else. -/
theorem createCachedHeaps_others {answers : Nat → HeapAnswers} {slots : List Nat} {a a' : ScalableAllocator}
    {mem mem' : Memory} {ok : Bool} (h : createCachedHeaps A answers slots a mem = some (ok, a', mem')) :
    a'.centralHeap = a.centralHeap ∧ ∀ i ∉ slots, a'.localHeaps i = a.localHeaps i := by
  induction slots generalizing a mem with
  | nil =>
    cases h
    exact ⟨rfl, fun _ _ => rfl⟩
  | cons j rest ih =>
    have hone : ∀ {slot a₁ mem₁}, createLocalHeap A (answers j) j a mem = some (slot, a₁, mem₁) →
        a₁.centralHeap = a.centralHeap ∧ ∀ i ∉ j :: rest, a₁.localHeaps i = a.localHeaps i := by
      intro slot a₁ mem₁ hc
      obtain ⟨⟨ok', heap, mem₂⟩, -, he⟩ := Option.map_eq_some_iff.mp hc
      cases he
      exact ⟨rfl, fun i hi => Function.update_of_ne (fun e => hi (List.mem_cons.mpr (.inl e))) ..⟩
    rw [createCachedHeaps] at h
    split at h
    · cases h
    · rename_i hc
      cases h
      exact hone hc
    · rename_i hc
      obtain ⟨hcentral, hothers⟩ := hone hc
      obtain ⟨hcentral', hothers'⟩ := ih h
      exact ⟨hcentral'.trans hcentral, fun i hi => (hothers' i fun hm => hi (List.mem_cons_of_mem _ hm)).trans
        (hothers i hi)⟩

theorem Ready.onHeap {o : Option Nat} {heap' : SimpleHeapPow2} (h : Ready A params sys built g)
    (ho : Built built o) (hallocator : sys'.allocator = sys.allocator.setHeapAt o heap')
    (hinv : HeapsInv A sys' built g') (hidle : o = none → Idle heap') : Ready A params sys' built g' := by
  have hsame : SameMembers sys.allocator sys'.allocator := hallocator ▸ sameMembers_setHeapAt
  refine ⟨h.next hinv hsame.toSameSetup hsame.active.ge, fun i hi => ?_, ?_⟩
  · have hne : some i ≠ o := by
      rintro rfl
      exact hi ho
    have hheap : sys'.allocator.localHeaps i = sys.allocator.heapAt (some i) := by
      rw [hallocator]
      exact heapAt_setHeapAt_of_ne hne
    exact hheap ▸ h.blank i hi
  · rw [hallocator]
    cases o with
    | none => exact hidle rfl
    | some i => exact h.idle

theorem allocateOn_heap {o : Option Nat} {size : Nat} {arena : ArenaAnswers}
    (h : sys.allocateOn A o size arena = some sys') :
    ∃ heap', sys'.allocator = sys.allocator.setHeapAt o heap' ∧
      ((A.heapType o).concurrency ≠ .threadLocal → Idle (sys.allocator.heapAt o) → Idle heap') := by
  obtain ⟨⟨ret, heap', mem'⟩, he, rfl⟩ := Option.map_eq_some_iff.mp h
  refine ⟨heap', rfl, fun hdirect hidle => ?_⟩
  obtain ⟨⟨ret', s', mem₁⟩, hs, heq⟩ := Option.map_eq_some_iff.mp he
  cases heq
  have hpolicy : ((A.heapType o).segmentType (SimpleHeapPow2.requestTarget size).1).concurrency ≠ .threadLocal := by
    cases (SimpleHeapPow2.requestTarget size).1 <;> exact hdirect
  have hs : Segment.allocate ((A.heapType o).segmentType (SimpleHeapPow2.requestTarget size).1) arena
      (SimpleHeapPow2.requestTarget size).2 ((sys.allocator.heapAt o).segment (SimpleHeapPow2.requestTarget size).1)
      sys.memory = some (ret, s', mem') := hs
  rw [Segment.allocate, if_neg hpolicy] at hs
  exact hidle.setSegment _ (allocateInternal_queue hs)

theorem recycleSegments_idle {ids : List SegmentId} {heap heap' : SimpleHeapPow2} {mem mem' : Memory}
    (hidle : Idle heap) (h : SimpleHeapPow2.recycleSegments ids heap mem = some (heap', mem')) : Idle heap' := by
  induction ids generalizing heap mem with
  | nil =>
    cases h
    exact hidle
  | cons id rest ih =>
    rw [SimpleHeapPow2.recycleSegments] at h
    split at h
    · cases h
    · rename_i hrecycle
      exact ih (hidle.setSegment id (recycleFreeLoop_queue hrecycle)) h

theorem exit_heaps {thread : Nat} (hc : sys.KeepsIntervals A (.exit thread))
    (hp : sys.perform A (.exit thread) = some sys') :
    sys'.allocator.localHeaps = sys.allocator.localHeaps ∧ sys'.allocator.centralHeap = sys.allocator.centralHeap := by
  simp only [AllocatorSystem.perform, threadSpecificDestructor] at hp
  cases hstorage : sys.allocator.threadLocalStorage thread with
  | none =>
    rw [hstorage] at hp
    cases hp
    exact ⟨rfl, rfl⟩
  | some i =>
    rw [hstorage] at hp
    simp only [SimpleHeapPow2.transferLogicalPagesFrom, transferSegments_empty (hc i hstorage), Option.map_some,
      Option.some.injEq] at hp
    subst hp
    exact ⟨Function.update_eq_self .., rfl⟩

/-- A thread gets the next place: a heap that waits there, a new one, or none after a refusal. -/
theorem Ready.getThreadLocalHeap {thread : Nat} {answers : HeapAnswers} (h : Ready A params sys built g)
    (hpolicy : A.localHeap.concurrency = .threadLocal) (hsound : SoundCreation params creation)
    (ha : sys.MayDo (.getThreadLocalHeap thread answers)) (hc : EndsOrderly A sys (.getThreadLocalHeap thread answers))
    (hp : sys.perform A (.getThreadLocalHeap thread answers) = some sys') :
    ∃ built' g', Ready A params sys' built' g' := by
  obtain ⟨⟨slot, a', mem'⟩, hget, rfl⟩ := Option.map_eq_some_iff.mp hp
  rcases getThreadLocalHeap_cases hget with
    ⟨-, rfl, rfl, -⟩ | ⟨-, -, a₁, rfl, ⟨hlazy, hcreate⟩ | ⟨hcached, rfl, rfl, rfl⟩⟩
  · exact ⟨built, g, h⟩
  · have hvacant : ¬ built sys.allocator.activeLocalHeapCount := fun hi => by
      have := h.places _ hi
      omega
    obtain ⟨success, heap, new, hslot, rfl, hplaced⟩ := h.toHeapsInv.createLocalHeap hpolicy hvacant
      (h.params_eq ▸ hsound.localPower) (h.params_eq ▸ hsound.localBytes) rfl
      (fun hb => (ha _ hb).mono fun c hc => h.mapped hc) (hc.1 _) hcreate
    have hsame : SameMembers sys.allocator
        (sys.allocator.setHeapAt (some sys.allocator.activeLocalHeapCount) heap) := sameMembers_setHeapAt
    have hinv := hplaced.heapsInv
    have hle : sys.allocator.activeLocalHeapCount ≤ sys.allocator.activeLocalHeapCount + 1 := Nat.le_succ _
    rw [← hsame.active] at hle
    refine ⟨_, _, ⟨hinv.withThreads hle (hinv.storage_update hle fun j hj => ?_), hsame.params.trans h.params_eq,
      fun j hj => .inl (h.cached j (hsame.cached ▸ hj)), fun j hj => ?_⟩, fun j hj => ?_, h.idle⟩
    · rw [hslot] at hj
      split at hj
      · cases hj
        exact ⟨.inr ⟨‹_›, rfl⟩, Nat.lt_succ_self _⟩
      · cases hj
    · dsimp only
      rw [hsame.cached, hsame.active]
      rcases hj with hj | ⟨_, rfl⟩
      · have := h.places j hj
        omega
      · exact .inr (Nat.lt_succ_self _)
    · obtain ⟨hold, hnew⟩ := not_or.mp hj
      by_cases hplace : j = sys.allocator.activeLocalHeapCount
      · -- the heap at this place could not be created: the arena has refused its buffer
        subst hplace
        have hfailed : success = false := Bool.eq_false_iff.mpr fun hs => hnew ⟨hs, rfl⟩
        rw [hslot, hfailed] at hcreate
        have hrefused : answers.request (heapBytes sys.allocator.localHeapCreationParams) = 0 := by
          by_contra hgranted
          exact hc.2 hgranted _ _ hcreate
        obtain ⟨⟨ok, heap', mem₁⟩, he, heq⟩ := Option.map_eq_some_iff.mp hcreate
        have hheap : heap' = heap := by
          have hallocator : sys.allocator.setLocalHeap sys.allocator.activeLocalHeapCount heap' =
              sys.allocator.setLocalHeap sys.allocator.activeLocalHeapCount heap := by
            simp only [Prod.mk.injEq] at heq
            exact heq.2.1
          have hself := congrArg (fun a => a.localHeaps sys.allocator.activeLocalHeapCount) hallocator
          simpa [setLocalHeap] using hself
        have hbytes := calculateRequiredBufferSize_eq (h.params_eq ▸ hsound.localBytes :
          heapBytes sys.allocator.localHeapCreationParams < 2^64)
        have hblank := create_refused (hbytes ▸ hrefused) he
        show Blank ((sys.allocator.setHeapAt (some _) heap).localHeaps _)
        rw [localHeaps_placed_self, ← hheap]
        exact hblank
      · show Blank ((sys.allocator.setHeapAt (some _) heap).localHeaps j)
        rw [localHeaps_placed hplace]
        exact h.blank j hold
  · have hle := Nat.le_succ sys.allocator.activeLocalHeapCount
    refine ⟨built, g, h.next (h.withThreads hle (h.storage_update hle fun j hj => ?_)) ⟨rfl, rfl, rfl⟩ hle,
      h.blank, h.idle⟩
    cases hj
    exact ⟨h.cached _ hcached, Nat.lt_succ_self _⟩

theorem Ready.perform_ok (h : Ready A params sys built g) (hpolicy : A.localHeap.concurrency = .threadLocal)
    (hsound : SoundCreation params creation) (ha : sys.MayDo action) (hc : EndsOrderly A sys action)
    (hp : sys.perform A action = some sys') : ∃ built' g', Ready A params sys' built' g' := by
  have hcentral : (A.heapType none).concurrency ≠ .threadLocal := by
    have hpolicy : (A.heapType none).concurrency = .central := A.central_policy
    rw [hpolicy]
    decide
  cases action with
  | getThreadLocalHeap thread answers => exact h.getThreadLocalHeap hpolicy hsound ha hc hp
  | allocateLocal thread size arena =>
    obtain ⟨i, hi, he⟩ := Option.bind_eq_some_iff.mp hp
    obtain ⟨hbuilt, hactive⟩ := h.storage thread i hi
    obtain ⟨sys₁, g₁, he₁, hinv, -⟩ := h.allocateLocal_ok size arena hpolicy hbuilt hactive
    cases he.symm.trans he₁
    obtain ⟨heap', hallocator, -⟩ := allocateOn_heap he
    exact ⟨built, g₁, h.onHeap (o := some i) hbuilt hallocator hinv nofun⟩
  | allocateCentral size arena =>
    obtain ⟨sys₁, g₁, he₁, hinv, -⟩ := h.allocateCentral_ok ha hc.1
    cases hp.symm.trans he₁
    obtain ⟨heap', hallocator, hidle⟩ := allocateOn_heap he₁
    exact ⟨built, g₁, h.onHeap (o := none) trivial hallocator hinv fun _ => hidle hcentral h.idle⟩
  | deallocate x =>
    obtain ⟨_, s', mem', g', _, _, _, he, htaken, hinv, -⟩ := h.deallocate_ok ha
    rw [AllocatorSystem.perform, he] at hp
    cases hp
    refine ⟨built, g', h.onHeap (o := x.owner) (h.held x ha).1 rfl hinv fun hnone => ?_⟩
    have hdirect : (A.segmentType x.place).concurrency ≠ .threadLocal := by
      rw [AllocatorType.segmentType, Held.place, hnone]
      cases x.segment <;> exact hcentral
    have hqueue := deallocateOnPage_queue (htaken.direct hdirect)
    rw [Held.place, hnone] at hqueue ⊢
    exact h.idle.setSegment _ hqueue
  | recycle owner =>
    obtain ⟨⟨heap', mem'⟩, he, rfl⟩ := Option.map_eq_some_iff.mp hp
    have ho : Built built owner := by
      cases owner with
      | none => trivial
      | some i =>
        obtain ⟨thread, hi⟩ := ha i rfl
        exact (h.storage thread i hi).1
    obtain ⟨g', hinv⟩ := h.recycleSegments_ok ho (fun id a hal hflag =>
      ((h.heapInv ho).segmentInv id |>.used_eq_zero hal).mp (hc.1 id _ (h.lists ho id) a hal hflag)) he
    refine ⟨built, g', h.onHeap ho rfl hinv fun hnone => ?_⟩
    subst hnone
    exact recycleSegments_idle h.idle he
  | exit thread =>
    obtain ⟨hinv, hsame, hactive⟩ := h.exit_ok hc.1 hp
    obtain ⟨hheaps, hcentral⟩ := exit_heaps hc.1 hp
    exact ⟨built, g, h.next hinv hsame hactive.ge, fun i hi => hheaps ▸ h.blank i hi, hcentral ▸ h.idle⟩
  | store address value =>
    obtain ⟨x, hx, hlo, hhi⟩ := ha
    cases hp
    exact ⟨built, g, h.next (h.store_ok hx hlo hhi value) (.refl _) le_rfl, h.blank, h.idle⟩

end

section
variable {A : AllocatorType} {params : CreationParams} {answers : CreationAnswers} {sys : AllocatorSystem}
  {condition condition' : AllocatorSystem → AllocatorAction → Prop}

theorem AllocatorRun.mono (hc : ∀ sys action, condition sys action → condition' sys action)
    (h : AllocatorRun A params answers condition sys) : AllocatorRun A params answers condition' sys := by
  induction h with
  | create hfresh h => exact .create hfresh h
  | step _ ha hcond hp ih => exact ih.step ha (hc _ _ hcond) hp

theorem AllocatorRun.ready (hpolicy : A.localHeap.concurrency = .threadLocal)
    (hsound : SoundCreation params answers) (h : AllocatorRun A params answers (EndsOrderly A) sys) :
    ∃ built g, Ready A params sys built g := by
  induction h with
  | create hfresh h =>
    obtain ⟨built, g, hinv⟩ := (AllocatorRun.create hfresh h).inv hpolicy hsound
    obtain ⟨heap, mem₁, cached, hcentral, _, _, hcached⟩ := create_succeeded h
    obtain ⟨hsame, hothers⟩ := createCachedHeaps_others hcached
    have hcount := (sameSlots_createCachedHeaps hcached).cached
    refine ⟨built, g, hinv, fun i hi => ?_, ?_⟩
    · have hplace : i ∉ List.range cached := fun hmem => hi (hinv.cached i (by
        have := List.mem_range.mp hmem
        exact hcount ▸ this))
      rw [hothers i hplace]
      exact fun id => by cases id <;> rfl
    · rw [hsame]
      exact create_idle (fun id => by cases id <;> rfl) hcentral
  | step _ ha hc hp ih =>
    obtain ⟨built, g, hready⟩ := ih
    exact hready.perform_ok hpolicy hsound ha hc hp

def AllocatorSystem.Unused (sys : AllocatorSystem) (page size : Nat) : Prop :=
  ∀ x ∈ sys.live, ∀ b, x.allocation.Holds b → onPage size page b = false

/-- The pages that the destructor has released: every page of a destroyed heap on which nobody
holds anything, each once, and nothing else. What clients hold is as it was. -/
structure ShutDown (sys : AllocatorSystem) (fastShutdown : Bool) (mem' : Memory) : Prop where
  log : ∃ released, mem'.released = released ++ sys.memory.released ∧ released.Nodup ∧
    ∀ page size, (page, size) ∈ released ↔ ∃ owner id l, sys.allocator.EndsHeap fastShutdown owner ∧
      sys.Lists owner id l ∧ page ∈ l ∧ size = ((sys.allocator.heapAt owner).segment id).logicalPageSize ∧
      sys.Unused page size
  contents : Spares sys.memory mem' (sys.live.map Held.allocation)

section
variable {built : Nat → Prop} {g : Option Nat × SegmentId → Ghost} {p : Option Nat × SegmentId} {page : Nat}

/-- What is in use on a page of a segment comes from that segment. -/
theorem HeapsInv.isUnused_iff (h : HeapsInv A sys built g) (hp : Built built p.1) (hpage : page ∈ (g p).pages) :
    isUnused (sys.allocator.segmentAt p).logicalPageSize (heldAt sys.live p) page = true ↔
      sys.Unused page (sys.allocator.segmentAt p).logicalPageSize := by
  rw [Segments.isUnused_iff]
  constructor
  · intro hunused x hx b hb
    refine Bool.eq_false_iff.mpr fun hon => ?_
    have hlive : x.allocation ∈ heldAt sys.live x.place := mem_liveAt hx
    by_cases hplace : x.place = p
    · subst hplace
      obtain ⟨a, ha, hxa, hlo, hhi⟩ := h.page hx
      have hsegment : SegmentInv _ _ (sys.allocator.segmentAt x.place) sys.memory (g x.place).pages
          (g x.place).owned := (h.family.system x.place hp).segment
      by_cases hsame : a = page
      · subst hsame
        exact Bool.false_ne_true ((hunused _ hlive).symm.trans (onPage_iff.mpr ⟨hlo, hhi⟩))
      · have hin := hsegment.owned_inside hxa
        have hapart := hsegment.apart_of_ne ha hpage hsame
        have hon := onPage_iff.mp hon
        simp only [PagesApart, Allocation.Holds] at hapart hb
        omega
    · exact h.family.apart x.place p (h.held x hx).1 hp hplace b (h.family.region_of_holds (h.held x hx).1 hlive hb)
        ⟨page, hpage, onPage_iff.mp hon⟩
  · intro hunused y hy
    obtain ⟨x, hx, rfl⟩ := List.mem_map.mp hy
    have hlive := (List.mem_filter.mp hx).1
    obtain ⟨a, -, hxa, -⟩ := h.page hlive
    have hin := ((h.family.system x.place (h.held x hlive).1).segment).owned_inside hxa
    exact hunused x hlive x.ptr ⟨le_rfl, Nat.lt_add_of_pos_right hin.1⟩

theorem HeapsInv.nodup_unused {members : List (Option Nat × SegmentId)} (h : HeapsInv A sys built g)
    (hnodup : members.Nodup) (hbuilt : ∀ p ∈ members, Built built p.1) :
    (members.flatMap (unusedAt sys.allocator.segmentAt (heldAt sys.live) g)).Nodup := by
  refine List.nodup_flatMap.mpr ⟨fun p hp => ?_, ?_⟩
  · have hpages := (h.family.system p (hbuilt p hp)).segment.listed.ring.nodup_list
    exact (hpages.filter _).map fun _ _ he => congrArg Prod.fst he
  · refine hnodup.pairwise_of_forall_ne fun p hp q hq hne => ?_
    rintro ⟨a, n⟩ hpa hqa
    obtain ⟨b, hb, heq⟩ := List.mem_map.mp hpa
    obtain ⟨c, hc, heq'⟩ := List.mem_map.mp hqa
    obtain rfl : b = a := congrArg Prod.fst heq
    obtain rfl : c = b := congrArg Prod.fst heq'
    have hpos : ∀ {r}, r ∈ members → 0 < (sys.allocator.segmentAt r).logicalPageSize := fun hr =>
      (Nat.zero_le _).trans_lt (h.family.system _ (hbuilt _ hr)).segment.geometry.object_lt
    exact h.family.apart p q (hbuilt p hp) (hbuilt q hq) hne c
      ⟨c, (List.mem_filter.mp hb).1, le_rfl, Nat.lt_add_of_pos_right (hpos hp)⟩
      ⟨c, (List.mem_filter.mp hc).1, le_rfl, Nat.lt_add_of_pos_right (hpos hq)⟩

theorem Blank.lists {i : Nat} {id : SegmentId} {l : List Nat} (h : Blank (sys.allocator.localHeaps i))
    (hlists : sys.Lists (some i) id l) : l = [] := by
  obtain ⟨hpath, h0⟩ := hlists
  have hhead : ((sys.allocator.heapAt (some i)).segment id).head = 0 := congrArg Segment.head (h id)
  rw [hhead] at hpath
  cases l with
  | nil => rfl
  | cons b rest => exact absurd (hpath.1 ▸ List.mem_cons_self) h0

end

/-- The destructor destroys the heaps that exist, each once. -/
theorem Ready.destructor {built : Nat → Prop} {g : Option Nat × SegmentId → Ghost}
    (h : Ready A params sys built g) (hpolicy : A.localHeap.concurrency = .threadLocal) (fastShutdown : Bool) :
    ∃ members a' mem', destructor A fastShutdown sys.allocator sys.memory = some (a', mem') ∧ members.Nodup ∧
      (∀ p, p ∈ members ↔ sys.allocator.EndsHeap fastShutdown p.1 ∧ Built built p.1) ∧
      MembersDestroyed A.segmentType A.laws (fun p => Built built p.1) sys.allocator.segmentAt sys.memory
        (heldAt sys.live) g members a'.segmentAt mem' := by
  have hfamily := h.family
  obtain ⟨members, a₁, mem₁, hnodup, hin, he, hcentral, hlocal⟩ : ∃ members a₁ mem₁, members.Nodup ∧
      (∀ p, p ∈ members ↔ p.1 ≠ none ∧ sys.allocator.EndsHeap fastShutdown p.1 ∧ Built built p.1) ∧
      (if fastShutdown then some (sys.allocator, sys.memory) else destroyHeaps A sys.allocator sys.memory) =
        some (a₁, mem₁) ∧ a₁.centralHeap = sys.allocator.centralHeap ∧
      MembersDestroyed A.segmentType A.laws (fun p => Built built p.1) sys.allocator.segmentAt sys.memory
        (heldAt sys.live) g members a₁.segmentAt mem₁ := by
    cases fastShutdown with
    | true =>
      refine ⟨[], _, _, List.nodup_nil, fun p => ?_, rfl, rfl, hfamily.destroyed_nil⟩
      obtain ⟨_ | i, id⟩ := p <;> simp [EndsHeap]
    | false =>
      obtain ⟨members, a₁, mem₁, ⟨hnodup, hin⟩, he, hcentral, hlocal⟩ := destroyLocalHeaps_ok hfamily hpolicy
        (List.nodup_range (n := sys.allocator.getCreatedHeapCount)) (fun i _ hi _ => hi) fun i _ hi => h.blank i hi
      refine ⟨members, a₁, mem₁, hnodup, fun p => ?_, he, hcentral, hlocal⟩
      rw [hin]
      obtain ⟨_ | i, id⟩ := p <;> simp [EndsHeap, Built]
  have hnew : ∀ p ∈ segmentsOf none, Built built p.1 ∧ p ∉ members := by
    intro p hp
    have hnone := mem_segmentsOf.mp hp
    exact ⟨hnone ▸ trivial, fun hmem => ((hin p).mp hmem).1 hnone⟩
  have hidle : Idle (a₁.heapAt none) := by
    rw [heapAt, hcentral]
    exact h.idle
  obtain ⟨heap', mem', hdestroy, hlast⟩ := destroyHeap_ok (o := none) hlocal.family
    (fun id => hnew (none, id) (mem_segmentsOf.mpr rfl)) fun _ => hidle
  refine ⟨members ++ segmentsOf none, _, mem', ?_, ?_, fun p => ?_, hlocal.trans hfamily hlast hnew⟩
  · have hdestroy : SimpleHeapPow2.destroy A.centralHeap a₁.centralHeap mem₁ = some (heap', mem') := hdestroy
    rw [ScalableAllocator.destructor, he]
    dsimp only
    rw [hdestroy]
    rfl
  · exact hnodup.append nodup_segmentsOf fun p hp hp' => (hnew p hp').2 hp
  · rw [List.mem_append, hin, mem_segmentsOf]
    obtain ⟨_ | i, id⟩ := p <;> simp [EndsHeap, Built]

/-- After every run the destructor returns and has given back exactly what nobody uses. -/
theorem shutdown_releases (hpolicy : A.localHeap.concurrency = .threadLocal)
    (hsound : SoundCreation params answers) (h : AllocatorRun A params answers (EndsOrderly A) sys)
    (fastShutdown : Bool) :
    ∃ a' mem', destructor A fastShutdown sys.allocator sys.memory = some (a', mem') ∧
      ShutDown sys fastShutdown mem' := by
  obtain ⟨built, g, hready⟩ := h.ready hpolicy hsound
  have hinv := hready.toHeapsInv
  obtain ⟨members, a', mem', he, hnodup, hin, hdestroyed⟩ := hready.destructor hpolicy fastShutdown
  have hbuilt : ∀ p ∈ members, Built built p.1 := fun p hp => ((hin p).mp hp).2
  obtain ⟨released, hlog, hperm⟩ := hdestroyed.log
  refine ⟨a', mem', he, ⟨released, hlog, hperm.nodup_iff.mpr (hinv.nodup_unused hnodup hbuilt), fun page size => ?_⟩,
    hinv.spares_held (fun _ hx => hx) fun p hp => hdestroyed.spares p hp⟩
  rw [hperm.mem_iff, List.mem_flatMap]
  constructor
  · rintro ⟨p, hp, hmem⟩
    obtain ⟨a, ha, heq⟩ := List.mem_map.mp hmem
    cases heq
    obtain ⟨hpage, hunused⟩ := List.mem_filter.mp ha
    exact ⟨p.1, p.2, (g p).pages, ((hin p).mp hp).1, hinv.lists (hbuilt p hp) p.2, hpage, rfl,
      (hinv.isUnused_iff (hbuilt p hp) hpage).mp hunused⟩
  · rintro ⟨owner, id, l, hends, hlists, hpage, rfl, hunused⟩
    by_cases ho : Built built owner
    · obtain rfl := ((hinv.heapInv ho).system id).eq_of_lists hlists
      refine ⟨(owner, id), (hin _).mpr ⟨hends, ho⟩, List.mem_map.mpr ⟨page, List.mem_filter.mpr ⟨hpage, ?_⟩, rfl⟩⟩
      exact (hinv.isUnused_iff (p := (owner, id)) ho hpage).mpr hunused
    · cases owner with
      | none => exact absurd trivial ho
      | some i =>
        rw [(hready.blank i ho).lists hlists] at hpage
        cases hpage

end

theorem AsksNothing.endsOrderly {A : AllocatorType} {sys : AllocatorSystem} {action : AllocatorAction}
    (h : AsksNothing action) : EndsOrderly A sys action := by
  refine ⟨h.keepsIntervals, ?_⟩
  cases h with
  | getThreadLocalHeap thread => exact fun hgranted => absurd rfl hgranted
  | allocateLocal thread size => exact trivial
  | allocateCentral size => exact trivial

/-- Two heaps of nine pages each, of which two are in use. -/
theorem shutdown_releases_of_two : ∃ sys a' mem', (oneThreadAllocator.localHeap.concurrency = .threadLocal ∧
      SoundCreation cachedHeapParams cachedHeapAnswers ∧
      AllocatorRun oneThreadAllocator cachedHeapParams cachedHeapAnswers (EndsOrderly oneThreadAllocator) sys) ∧
    sys.live = [⟨1052656, 16, none, .small 0⟩, ⟨2101232, 16, some 0, .small 0⟩] ∧
    destructor oneThreadAllocator false sys.allocator sys.memory = some (a', mem') ∧
    ShutDown sys false mem' ∧ mem'.released.length = 16 := by
  have hcount : (afterActions twoRequests).map (fun sys => (sys.live,
      (destructor oneThreadAllocator false sys.allocator sys.memory).map fun r => r.2.released.length)) =
      some ([⟨1052656, 16, none, .small 0⟩, ⟨2101232, 16, some 0, .small 0⟩], some 16) := by
    decide +kernel
  obtain ⟨sys, h, hstate⟩ := Option.map_eq_some_iff.mp hcount
  simp only [Prod.mk.injEq] at hstate
  have hrun : AllocatorRun oneThreadAllocator cachedHeapParams cachedHeapAnswers (EndsOrderly oneThreadAllocator) sys :=
    run_afterActions (fun _ _ hq => hq.endsOrderly) asksNothing_twoRequests h
  obtain ⟨a', mem', he, hshut⟩ := shutdown_releases rfl soundCreation_cached hrun false
  rw [he, Option.map_some, Option.some.injEq] at hstate
  exact ⟨sys, a', mem', ⟨rfl, soundCreation_cached, hrun⟩, hstate.1, he, hshut, hstate.2⟩

end Metamalloc.Allocator
