import Metamalloc.Allocator.AllocatorSystem
import Metamalloc.Segments.PageTransfer

/-! The pages of the heaps and the intervals of local heaps, by which `deallocate` of the allocator
finds the heap of a pointer. An interval is right as long as no page leaves it and nothing else is
put into it. -/
namespace Metamalloc.Allocator
open Library.Word64 Library.ByteMemory Library.LinkedList Pages Segments Heaps

abbrev heldAt (live : List Held) : Option Nat × SegmentId → List Allocation :=
  liveAt Held.place Held.allocation live

namespace AllocatorType
variable (A : AllocatorType)

def segmentType (p : Option Nat × SegmentId) : SegmentType := (A.heapType p.1).segmentType p.2
def laws (p : Option Nat × SegmentId) : PageLaws (A.segmentType p).page := (A.heapType p.1).laws p.2

end AllocatorType

namespace ScalableAllocator
variable {a : ScalableAllocator} {o o' : Option Nat} {id : SegmentId} {heap : SimpleHeapPow2} {s : Segment}
  {i c : Nat}

def segmentAt (a : ScalableAllocator) (p : Option Nat × SegmentId) : Segment := (a.heapAt p.1).segment p.2

def setSegmentAt (a : ScalableAllocator) (p : Option Nat × SegmentId) (s : Segment) : ScalableAllocator :=
  a.setHeapAt p.1 ((a.heapAt p.1).setSegment p.2 s)

theorem heapAt_setHeapAt_self : (a.setHeapAt o heap).heapAt o = heap := by
  cases o with
  | none => rfl
  | some i => exact Function.update_self ..

theorem heapAt_setHeapAt_of_ne (h : o' ≠ o) : (a.setHeapAt o heap).heapAt o' = a.heapAt o' := by
  cases o with
  | none =>
    cases o' with
    | none => exact absurd rfl h
    | some j => rfl
  | some i =>
    cases o' with
    | none => rfl
    | some j => exact Function.update_of_ne (fun e => h (congrArg some e)) ..

theorem segmentAt_setSegmentAt (p : Option Nat × SegmentId) :
    (a.setSegmentAt p s).segmentAt = Function.update a.segmentAt p s := by
  obtain ⟨o, id⟩ := p
  funext q
  obtain ⟨o', id'⟩ := q
  simp only [segmentAt, setSegmentAt]
  by_cases ho : o' = o
  · subst ho
    rw [heapAt_setHeapAt_self, segment_setSegment]
    by_cases hid : id' = id
    · subst hid
      rw [Function.update_self, Function.update_self]
    · rw [Function.update_of_ne hid, Function.update_of_ne fun e => hid (congrArg Prod.snd e)]
      rfl
  · rw [heapAt_setHeapAt_of_ne ho, Function.update_of_ne fun e => ho (congrArg Prod.fst e)]
    rfl

theorem ownsPointer_setSegmentAt (p : Option Nat × SegmentId) :
    ((a.setSegmentAt p s).localHeaps i).ownsPointer c = (a.localHeaps i).ownsPointer c := by
  obtain ⟨o, id⟩ := p
  have hheap : (a.setSegmentAt (o, id) s).localHeaps i = (a.setSegmentAt (o, id) s).heapAt (some i) := rfl
  rw [hheap, setSegmentAt]
  by_cases ho : some i = o
  · subst ho
    rw [heapAt_setHeapAt_self, SimpleHeapPow2.ownsPointer, SimpleHeapPow2.bufferAddress_setSegment,
      SimpleHeapPow2.bufferLength_setSegment]
    rfl
  · rw [heapAt_setHeapAt_of_ne ho]
    rfl

structure SameSetup (a a' : ScalableAllocator) : Prop where
  params : a'.localHeapCreationParams = a.localHeapCreationParams
  alignment : a'.arenaPageAlignment = a.arenaPageAlignment
  cached : a'.cachedThreadLocalHeapCount = a.cachedThreadLocalHeapCount

theorem SameSetup.refl (a : ScalableAllocator) : SameSetup a a := ⟨rfl, rfl, rfl⟩

/-- The members that calls on heaps leave alone. -/
structure SameMembers (a a' : ScalableAllocator) : Prop extends SameSetup a a' where
  active : a'.activeLocalHeapCount = a.activeLocalHeapCount
  storage : a'.threadLocalStorage = a.threadLocalStorage

theorem SameMembers.trans {a' a'' : ScalableAllocator} (h : SameMembers a a') (h' : SameMembers a' a'') :
    SameMembers a a'' :=
  ⟨⟨h'.params.trans h.params, h'.alignment.trans h.alignment, h'.cached.trans h.cached⟩,
    h'.active.trans h.active, h'.storage.trans h.storage⟩

theorem sameMembers_setHeapAt : SameMembers a (a.setHeapAt o heap) := by
  cases o <;> exact ⟨⟨rfl, rfl, rfl⟩, rfl, rfl⟩

theorem sameMembers_setSegmentAt (p : Option Nat × SegmentId) : SameMembers a (a.setSegmentAt p s) :=
  sameMembers_setHeapAt

theorem setHeapAt_self : a.setHeapAt o (a.heapAt o) = a := by
  cases o with
  | none => rfl
  | some i => exact congrArg (fun heaps => { a with localHeaps := heaps }) (Function.update_eq_self ..)

theorem setHeapAt_setHeapAt {heap' : SimpleHeapPow2} :
    (a.setHeapAt o heap').setHeapAt o heap = a.setHeapAt o heap := by
  cases o with
  | none => rfl
  | some i => exact congrArg (fun heaps => { a with localHeaps := heaps }) (Function.update_idem ..)

end ScalableAllocator
open ScalableAllocator

/-- The central heap exists, and the local heaps that could be created. -/
def Built (built : Nat → Prop) : Option Nat → Prop
  | none => True
  | some i => built i

/-- All heaps keep their invariants; the pages of a local heap lie in its interval, and no other
page lies there. -/
structure HeapsInv (A : AllocatorType) (sys : AllocatorSystem) (built : Nat → Prop)
    (g : Option Nat × SegmentId → Ghost) : Prop where
  family : FamilyInv A.segmentType A.laws (fun p => Built built p.1) sys.allocator.segmentAt sys.memory
    (heldAt sys.live) g
  config : ∀ o, Built built o → HeapConfig (sys.allocator.heapAt o) ∧
    (sys.allocator.heapAt o).smallObjectLogicalPageSize = sys.allocator.arenaPageAlignment
  fits : ∀ x ∈ sys.live, x.size ≤ x.allocation.size
  held : ∀ x ∈ sys.live, Built built x.owner ∧ ∀ i, x.owner = some i → i < sys.allocator.activeLocalHeapCount
  bigPage : ∀ i, built i → (sys.allocator.segmentAt (some i, .big)).bufferLength =
      (sys.allocator.segmentAt (some i, .big)).logicalPageSize ∧ (g (some i, .big)).pages.length ≤ 1
  bigSize : ∀ i, built i → (sys.allocator.segmentAt (some i, .big)).logicalPageSize ≤
    heapBytes sys.allocator.localHeapCreationParams
  inside : ∀ p c i, p.1 = some i → built i →
    region (sys.allocator.segmentAt p).logicalPageSize (g p).pages c →
    (sys.allocator.localHeaps i).ownsPointer c = true
  outside : ∀ p c, Built built p.1 → region (sys.allocator.segmentAt p).logicalPageSize (g p).pages c →
    heapBytes sys.allocator.localHeapCreationParams ≤ c ∧
    ∀ i, p.1 ≠ some i → (sys.allocator.localHeaps i).ownsPointer c = false
  storage : ∀ thread i, sys.allocator.threadLocalStorage thread = some i →
    built i ∧ i < sys.allocator.activeLocalHeapCount

section
variable {A : AllocatorType} {sys sys' : AllocatorSystem} {built : Nat → Prop}
  {g : Option Nat × SegmentId → Ghost} {p : Option Nat × SegmentId} {o : Option Nat} {id : SegmentId}
  {x : Held} {size : Nat} {arena : ArenaAnswers} {s' : Segment} {mem' : Memory} {g' : Ghost} {live' : List Held}

namespace HeapsInv

theorem heapInv (h : HeapsInv A sys built g) (ho : Built built o) :
    HeapInv (A.heapType o) (sys.allocator.heapAt o) sys.memory (fun id => heldAt sys.live (o, id))
      fun id => g (o, id) := by
  have hinj : Function.Injective fun id : SegmentId => (o, id) := fun _ _ e => congrArg Prod.snd e
  have hpart := h.family.comap hinj
  refine ⟨(h.config o ho).1, fun id _ => hpart.system id ho, fun i j _ _ => hpart.apart i j ho ho⟩

theorem lists (h : HeapsInv A sys built g) (ho : Built built o) (id : SegmentId) :
    sys.Lists o id (g (o, id)).pages :=
  ((h.heapInv ho).system id).lists

theorem mapped (h : HeapsInv A sys built g) {c : Nat}
    (hc : Segments.Mapped (fun p => Built built p.1) sys.allocator.segmentAt g c) : sys.Mapped c := by
  obtain ⟨⟨o, id⟩, ho, hc⟩ := hc
  exact ⟨o, id, _, h.lists ho id, hc⟩

/-- A call on one segment. The central heap may list new pages outside the intervals. -/
theorem replaced (h : HeapsInv A sys built g)
    (hconfig : s'.toSegmentConfig = (sys.allocator.segmentAt p).toSegmentConfig)
    (hfamily : FamilyInv A.segmentType A.laws (fun p => Built built p.1)
      (Function.update sys.allocator.segmentAt p s') mem' (heldAt live') (Function.update g p g'))
    (hfits : ∀ x ∈ live', x.size ≤ x.allocation.size)
    (hheld : ∀ x ∈ live', Built built x.owner ∧
      ∀ i, x.owner = some i → i < sys.allocator.activeLocalHeapCount)
    (hpages : ∀ a ∈ g'.pages, a ∈ (g p).pages ∨
      p.1 = none ∧ sys.Unclaimed a (sys.allocator.segmentAt p).logicalPageSize) :
    HeapsInv A ⟨sys.allocator.setSegmentAt p s', mem', live'⟩ built (Function.update g p g') := by
  have hsame : SameMembers sys.allocator (sys.allocator.setSegmentAt p s') := sameMembers_setSegmentAt p
  have hconfigs : ∀ q, (Function.update sys.allocator.segmentAt p s' q).toSegmentConfig =
      (sys.allocator.segmentAt q).toSegmentConfig := by
    intro q
    by_cases hq : q = p
    · subst hq
      rw [Function.update_self, hconfig]
    · rw [Function.update_of_ne hq]
  have hregion : ∀ q c, region ((sys.allocator.setSegmentAt p s').segmentAt q).logicalPageSize
      (Function.update g p g' q).pages c →
      region (sys.allocator.segmentAt q).logicalPageSize (g q).pages c ∨
        q.1 = none ∧ ¬ sys.allocator.Claimed c := by
    intro q c hc
    rw [segmentAt_setSegmentAt, congrArg SegmentConfig.logicalPageSize (hconfigs q)] at hc
    by_cases hq : q = p
    · subst hq
      rw [Function.update_self] at hc
      obtain ⟨a, ha, hlo, hhi⟩ := hc
      rcases hpages a ha with ha | ⟨hnone, hfree⟩
      · exact .inl ⟨a, ha, hlo, hhi⟩
      · exact .inr ⟨hnone, hfree c hlo hhi⟩
    · rw [Function.update_of_ne hq] at hc
      exact .inl hc
  refine ⟨?_, fun o ho => ?_, hfits, ?_, fun i hi => ?_, fun i hi => ?_, fun q c i hq hi hc => ?_,
    fun q c hq hc => ?_, ?_⟩
  · rw [segmentAt_setSegmentAt]
    exact hfamily
  · rw [hsame.alignment]
    dsimp only [setSegmentAt]
    by_cases hop : o = p.1
    · subst hop
      rw [heapAt_setHeapAt_self, SimpleHeapPow2.smallObjectLogicalPageSize_setSegment]
      exact ⟨(h.config _ ho).1.setSegment hconfig, (h.config _ ho).2⟩
    · rw [heapAt_setHeapAt_of_ne hop]
      exact h.config o ho
  · rw [hsame.active]
    exact hheld
  · obtain ⟨hlength, hone⟩ := h.bigPage i hi
    rw [segmentAt_setSegmentAt, congrArg SegmentConfig.bufferLength (hconfigs _),
      congrArg SegmentConfig.logicalPageSize (hconfigs _)]
    refine ⟨hlength, ?_⟩
    by_cases hp : (some i, SegmentId.big) = p
    · subst hp
      have hnodup : g'.pages.Nodup := by
        have hlist := (hfamily.system (some i, .big) hi).segment.listed.ring.nodup_list
        rwa [Function.update_self] at hlist
      have hsub : ∀ a ∈ g'.pages, a ∈ (g (some i, .big)).pages := fun a ha =>
        (hpages a ha).resolve_right fun hnone => by cases hnone.1
      rw [Function.update_self]
      exact (List.subperm_of_subset hnodup hsub).length_le.trans hone
    · rw [Function.update_of_ne hp]
      exact hone
  · rw [segmentAt_setSegmentAt, congrArg SegmentConfig.logicalPageSize (hconfigs _), hsame.params]
    exact h.bigSize i hi
  · rw [ownsPointer_setSegmentAt]
    rcases hregion q c hc with hc | ⟨hnone, _⟩
    · exact h.inside q c i hq hi hc
    · rw [hq] at hnone
      cases hnone
  · rw [hsame.params]
    simp only [ownsPointer_setSegmentAt]
    rcases hregion q c hc with hc | ⟨_, hfree⟩
    · exact h.outside q c hq hc
    · simp only [Claimed, not_or, not_lt, not_exists, Bool.not_eq_true] at hfree
      exact ⟨hfree.1, fun i _ => hfree.2 i⟩
  · rw [hsame.storage, hsame.active]
    exact h.storage

/-- The clients of all segments are all clients. -/
theorem spares_held {live : List Held} (h : HeapsInv A sys built g) (hsub : ∀ x ∈ live, x ∈ sys.live)
    (hs : ∀ p, Built built p.1 → Spares sys.memory mem' (heldAt live p)) :
    Spares sys.memory mem' (live.map Held.allocation) := by
  intro y hy
  obtain ⟨x, hx, rfl⟩ := List.mem_map.mp hy
  exact hs x.place (h.held x (hsub x hx)).1 _ (mem_liveAt hx)

theorem heldAt_granted {adjusted ret : Nat} (h : HeapsInv A sys built g) (ho : Built built o)
    (hadjusted : grantedSize id adjusted = grantedSize id size) :
    Function.update (heldAt sys.live) (o, id) (System.grant (A.segmentType (o, id)) (A.laws (o, id))
      (sys.allocator.segmentAt (o, id)).sizeClass adjusted ret (heldAt sys.live (o, id))) =
    heldAt (if ret = 0 then sys.live else ⟨ret, size, o, id⟩ :: sys.live) := by
  have hgranted : (A.laws (o, id)).granted (sys.allocator.segmentAt (o, id)).sizeClass adjusted =
      grantedSize id size := (granted_eq (h.config o ho).1 id adjusted).trans hadjusted
  refine liveAt_granted (x := (⟨ret, size, o, id⟩ : Held)) fun _ => ?_
  rw [hgranted]
  rfl

theorem granted {adjusted ret : Nat} (h : HeapsInv A sys built g) (ho : Built built o)
    (hactive : ∀ i, o = some i → i < sys.allocator.activeLocalHeapCount)
    (hsize : size ≤ grantedSize id size) (hadjusted : grantedSize id adjusted = grantedSize id size)
    (hconfig : s'.toSegmentConfig = (sys.allocator.segmentAt (o, id)).toSegmentConfig)
    (hfamily : FamilyInv A.segmentType A.laws (fun p => Built built p.1)
      (Function.update sys.allocator.segmentAt (o, id) s') mem'
      (Function.update (heldAt sys.live) (o, id) (System.grant (A.segmentType (o, id)) (A.laws (o, id))
        (sys.allocator.segmentAt (o, id)).sizeClass adjusted ret (heldAt sys.live (o, id))))
      (Function.update g (o, id) g'))
    (hpages : ∀ a ∈ g'.pages, a ∈ (g (o, id)).pages ∨
      o = none ∧ sys.Unclaimed a (sys.allocator.segmentAt (o, id)).logicalPageSize) :
    HeapsInv A ⟨sys.allocator.setSegmentAt (o, id) s', mem',
      if ret = 0 then sys.live else ⟨ret, size, o, id⟩ :: sys.live⟩ built (Function.update g (o, id) g') := by
  rw [h.heldAt_granted ho hadjusted] at hfamily
  refine h.replaced hconfig hfamily ?_ ?_ hpages
  · split
    · exact h.fits
    · exact List.forall_mem_cons.mpr ⟨hsize, h.fits⟩
  · split
    · exact h.held
    · exact List.forall_mem_cons.mpr ⟨⟨ho, hactive⟩, h.held⟩

theorem allocateOn_eq {adjusted ret : Nat} (ht : SimpleHeapPow2.requestTarget size = (id, adjusted))
    (he : Segment.allocate (A.segmentType (o, id)) arena adjusted (sys.allocator.segmentAt (o, id)) sys.memory =
      some (ret, s', mem')) :
    sys.allocateOn A o size arena = some ⟨sys.allocator.setSegmentAt (o, id) s', mem',
      if ret = 0 then sys.live else ⟨ret, size, o, id⟩ :: sys.live⟩ := by
  simp only [AllocatorType.segmentType, segmentAt] at he
  simp only [AllocatorSystem.allocateOn, SimpleHeapPow2.allocate, ht, he, Option.map_some, setSegmentAt]

/-- A local heap answers every request without new pages. -/
theorem allocateLocal_ok {i : Nat} (size : Nat) (arena : ArenaAnswers) (h : HeapsInv A sys built g)
    (hlocal : A.localHeap.concurrency = .threadLocal) (hi : built i)
    (hactive : i < sys.allocator.activeLocalHeapCount) :
    ∃ sys' g', sys.allocateOn A (some i) size arena = some sys' ∧ HeapsInv A sys' built g' ∧
      SameMembers sys.allocator sys'.allocator ∧
      Spares sys.memory sys'.memory (sys.live.map Held.allocation) := by
  obtain ⟨hsize, hadjusted, h0, _⟩ := requestTarget_spec size
  generalize htarget : SimpleHeapPow2.requestTarget size = target at hsize hadjusted h0
  obtain ⟨id, adjusted⟩ := target
  have hpolicy : (A.segmentType (some i, id)).concurrency = .threadLocal := by cases id <;> exact hlocal
  obtain ⟨ret, s', mem', g', he, hfamily, ht, hspares⟩ : ∃ ret s' mem' g',
        Segment.allocate (A.segmentType (some i, id)) arena adjusted (sys.allocator.segmentAt (some i, id))
          sys.memory = some (ret, s', mem') ∧ _ ∧ Touches _ _ _ _ _ _ _ ∧ _ :=
    h.family.allocate_local hi hpolicy fun _ => h0
  have hsame : SameMembers sys.allocator (sys.allocator.setSegmentAt (some i, id) s') :=
    sameMembers_setSegmentAt _
  refine ⟨_, Function.update g (some i, id) g', allocateOn_eq htarget he, ?_, hsame,
    h.spares_held (fun _ hx => hx) fun p hp => ?_⟩
  · refine h.granted hi ?_ hsize hadjusted ht.config hfamily fun a ha => .inl (by simpa using ht.pages a ha)
    rintro j hj
    cases hj
    exact hactive
  · have hall := h.family.spares (i := (some i, id)) hi ht (by rintro c ⟨_, hnil, _⟩; cases hnil) hspares hp
    rwa [Function.update_eq_self] at hall

theorem unclaimed_newPage {n b a pageSize : Nat} (h : sys.Unclaimed b (n * pageSize))
    (ha : a ∈ newPages pageSize b n) : sys.Unclaimed a pageSize := by
  intro c hlo hhi
  obtain ⟨hlo', hhi'⟩ := region_newPages ⟨a, ha, hlo, hhi⟩
  exact h c hlo' hhi'

theorem allocateCentral_ok (h : HeapsInv A sys built g) (ha : sys.MayDo (.allocateCentral size arena))
    (hc : sys.KeepsIntervals A (.allocateCentral size arena)) :
    ∃ sys' g', sys.allocateOn A none size arena = some sys' ∧ HeapsInv A sys' built g' ∧
      SameMembers sys.allocator sys'.allocator ∧
      Spares sys.memory sys'.memory (sys.live.map Held.allocation) := by
  obtain ⟨hsize, hadjusted, h0, _⟩ := requestTarget_spec size
  obtain ⟨hfull, hfree⟩ := hc
  generalize htarget : SimpleHeapPow2.requestTarget size = target at hsize hadjusted h0 hfull
  obtain ⟨id, adjusted⟩ := target
  have hpolicy : (A.segmentType (none, id)).concurrency ≠ .threadLocal := by
    have hcentral : (A.segmentType (none, id)).concurrency = .central := by
      cases id <;> exact A.central_policy
    rw [hcentral]
    decide
  have hfull : GrantedInFull (A.segmentType (none, id)) (sys.allocator.segmentAt (none, id)) arena adjusted :=
    hfull
  have hserves : ArenaServes (A.segmentType (none, id)) (sys.allocator.segmentAt (none, id)) arena adjusted
      sys.allocator.arenaPageAlignment sys.Mapped := arenaServes_of_full ha.1 hfull
  have hheap : HeapInv A.centralHeap sys.allocator.centralHeap sys.memory _ _ := h.heapInv (o := none) trivial
  have halign : sys.allocator.centralHeap.smallObjectLogicalPageSize = sys.allocator.arenaPageAlignment :=
    (h.config none trivial).2
  have hgranularity : 4096 ∣ sys.allocator.arenaPageAlignment := halign ▸ hheap.granularity
  obtain ⟨ret, s', mem', g', he, hfamily, hconfig, ho, hspares⟩ := h.family.allocate_direct (i := (none, id)) trivial
    hpolicy (fun _ => h0) hserves (fun c hc => h.mapped hc) hgranularity
    fun hal => halign ▸ hheap.aligned_dvd id hal
  have hsame : SameMembers sys.allocator (sys.allocator.setSegmentAt (none, id) s') :=
    sameMembers_setSegmentAt _
  refine ⟨_, Function.update g (none, id) g', allocateOn_eq htarget he, ?_, hsame,
    h.spares_held (fun _ hx => hx) hspares⟩
  obtain ⟨new, ht, hnew⟩ := ho.touches (fun n b hb => Nat.mod_eq_zero_of_dvd
    (hgranularity.trans (hserves.granted hb).aligned)) (h.family.system (none, id) trivial).segment
  refine h.granted trivial (by simp) hsize hadjusted hconfig hfamily fun a hal => ?_
  rcases List.mem_append.mp (ht.pages a hal) with hold | hal
  · exact .inl hold
  · rcases hnew with rfl | ⟨n, b, ⟨_, m, hq, _, rfl, hb⟩, rfl⟩
    · cases hal
    · have hlength : mul64 (sys.allocator.segmentAt (none, id)).logicalPageSize n =
          n * (sys.allocator.segmentAt (none, id)).logicalPageSize := by
        rw [mul64_of_lt (hfull.no_wrap n m hq hb), Nat.mul_comm]
      exact .inr ⟨rfl, unclaimed_newPage (hlength ▸ hfree _ hb) hal⟩

theorem page (h : HeapsInv A sys built g) (hx : x ∈ sys.live) :
    ∃ a ∈ (g x.place).pages, x.allocation ∈ (g x.place).owned a ∧ a ≤ x.ptr ∧
      x.ptr < a + (sys.allocator.segmentAt x.place).logicalPageSize :=
  (h.heapInv (h.held x hx).1).owner (mem_liveAt hx)

/-- The search through the intervals finds the heap of a page. -/
theorem owner_of_page {a c : Nat} (h : HeapsInv A sys built g) (ho : Built built o)
    (hactive : ∀ i, o = some i → i < sys.allocator.activeLocalHeapCount) (ha : a ∈ (g (o, id)).pages) (hlo : a ≤ c)
    (hhi : c < a + (sys.allocator.segmentAt (o, id)).logicalPageSize) : sys.allocator.owner c = o := by
  have hregion : region (sys.allocator.segmentAt (o, id)).logicalPageSize (g (o, id)).pages c := ⟨a, ha, hlo, hhi⟩
  have hout := (h.outside (o, id) c ho hregion).2
  rw [owner]
  cases o with
  | none =>
    refine List.find?_range_eq_none.mpr fun i _ => ?_
    rw [hout i (by simp)]
    rfl
  | some i =>
    refine List.find?_range_eq_some.mpr ⟨h.inside (some i, id) c i rfl ho hregion,
      List.mem_range.mpr (hactive i rfl), fun j hj => ?_⟩
    rw [hout j (by simp; omega)]
    rfl

/-- The heap then finds the segment. -/
theorem target_of_page {a c : Nat} (h : HeapsInv A sys built g) (ho : Built built o) (ha : a ∈ (g (o, id)).pages)
    (hlo : a ≤ c) (hhi : c < a + (sys.allocator.segmentAt (o, id)).logicalPageSize) :
    SimpleHeapPow2.pointerTarget (A.heapType o) c (sys.allocator.heapAt o) sys.memory = some id := by
  have hlow := (h.outside (o, id) c ho ⟨a, ha, hlo, hhi⟩).1
  have hheap := h.heapInv ho
  have hbin : (A.heapType o).concurrency = .threadLocal →
      (sys.allocator.heapAt o).bigObjectBin.bufferLength = (sys.allocator.heapAt o).bigObjectBin.logicalPageSize ∧
      (g (o, .big)).pages.length ≤ 1 ∧ (sys.allocator.heapAt o).bigObjectBin.logicalPageSize ≤ c := by
    intro hpolicy
    cases o with
    | none =>
      have hcentral := A.central_policy.symm.trans hpolicy
      cases hcentral
    | some i => exact ⟨(h.bigPage i ho).1, (h.bigPage i ho).2, (h.bigSize i ho).trans hlow⟩
  by_cases hpolicy : (A.heapType o).concurrency = .threadLocal
  · rcases hheap.pointerTarget_cases (fun hp => ⟨(hbin hp).1, (hbin hp).2.1⟩) ha hlo hhi with ht | ⟨_, hlt, _⟩
    · exact ht
    · have := (hbin hpolicy).2.2
      omega
  · exact hheap.pointerTarget_eq hpolicy ha hlo hhi

theorem owner_eq (h : HeapsInv A sys built g) (hx : x ∈ sys.live) : sys.allocator.owner x.ptr = x.owner := by
  obtain ⟨a, ha, _, hlo, hhi⟩ := h.page hx
  exact h.owner_of_page (h.held x hx).1 (h.held x hx).2 ha hlo hhi

theorem pointerTarget_eq (h : HeapsInv A sys built g) (hx : x ∈ sys.live) :
    SimpleHeapPow2.pointerTarget (A.heapType x.owner) x.ptr (sys.allocator.heapAt x.owner) sys.memory =
      some x.segment := by
  obtain ⟨a, ha, _, hlo, hhi⟩ := h.page hx
  exact h.target_of_page (h.held x hx).1 ha hlo hhi

theorem ptr_ne_zero (h : HeapsInv A sys built g) (hx : x ∈ sys.live) : x.ptr ≠ 0 := by
  obtain ⟨a, ha, _, hlo, _⟩ := h.page hx
  have := ((h.family.system x.place (h.held x hx).1).segment.listed).ne_zero ha
  omega

theorem deallocate_eq (h : HeapsInv A sys built g) (hx : x ∈ sys.live)
    (he : Segment.deallocate (A.segmentType x.place) x.ptr (sys.allocator.segmentAt x.place) sys.memory =
      some (s', mem')) :
    ScalableAllocator.deallocate A x.ptr sys.allocator sys.memory =
      some (sys.allocator.setSegmentAt x.place s', mem') := by
  have hheap := deallocate_of_target (h.pointerTarget_eq hx) he
  rw [ScalableAllocator.deallocate, if_neg (h.ptr_ne_zero hx), h.owner_eq hx]
  cases howner : x.owner with
  | none =>
    rw [howner] at hheap
    simp only [AllocatorType.heapType, heapAt] at hheap
    dsimp only
    rw [hheap, setSegmentAt, Held.place, howner]
    rfl
  | some i =>
    rw [howner] at hheap
    simp only [AllocatorType.heapType, heapAt] at hheap
    dsimp only
    rw [hheap, setSegmentAt, Held.place, howner]
    rfl

theorem heldAt_erase (hx : x ∈ sys.live) (p : Option Nat × SegmentId) :
    (Function.update (heldAt sys.live) x.place ((heldAt sys.live x.place).erase x.allocation) p).Perm
      (heldAt (sys.live.erase x) p) := liveAt_erase hx p

theorem given (h : HeapsInv A sys built g)
    (hfamily : FamilyInv A.segmentType A.laws (fun p => Built built p.1)
      (Function.update sys.allocator.segmentAt x.place s') mem'
      (Function.update (heldAt sys.live) x.place ((heldAt sys.live x.place).erase x.allocation))
      (Function.update g x.place g'))
    (hx : x ∈ sys.live) (hconfig : s'.toSegmentConfig = (sys.allocator.segmentAt x.place).toSegmentConfig)
    (hpages : ∀ a ∈ g'.pages, a ∈ (g x.place).pages) :
    HeapsInv A ⟨sys.allocator.setSegmentAt x.place s', mem', sys.live.erase x⟩ built
      (Function.update g x.place g') :=
  h.replaced hconfig (hfamily.perm (heldAt_erase hx)) (fun y hy => h.fits y (List.mem_of_mem_erase hy))
    (fun y hy => h.held y (List.mem_of_mem_erase hy)) fun a ha => .inl (hpages a ha)

end HeapsInv

/-- The segment has taken the pointer back: the page frees its block at once, or the pointer waits
in the queue that the owner drains with its next request. -/
structure TakenBack (T : SegmentType) (page ptr : Nat) (s : Segment) (mem : Memory) (s' : Segment)
    (mem' : Memory) : Prop where
  accepted : (Segment.deallocateOnPage T page ptr s mem).isSome
  direct : T.concurrency ≠ .threadLocal → Segment.deallocateOnPage T page ptr s mem = some (s', mem')
  queued : T.concurrency = .threadLocal → s' = Segment.pushDeallocationQueue ptr s ∧ mem' = mem ∧
    ∃ ret drained mem'', Segment.processDeallocationQueue T (!T.page.supportsAnySize) s' mem' =
      some (ret, drained, mem'') ∧ drained.deallocationQueue = []

namespace HeapsInv

theorem accepted {a : Nat} (h : HeapsInv A sys built g) (hp : Built built p.1) {y : Allocation}
    (hy : y ∈ (g p).owned a) :
    (Segment.deallocateOnPage (A.segmentType p) a y.ptr (sys.allocator.segmentAt p) sys.memory).isSome := by
  have hsystem := h.family.system p hp
  obtain ⟨s', mem', _, _, _, hpage, _⟩ := hsystem.deallocateInternal hy (hsystem.segment.frees_self hy)
  exact Option.isSome_iff_exists.mpr ⟨_, hpage⟩

theorem deallocate_ok (h : HeapsInv A sys built g) (hx : x ∈ sys.live) :
    ∃ a s' mem' g', a ∈ (g x.place).pages ∧ a ≤ x.ptr ∧
      x.ptr < a + (sys.allocator.segmentAt x.place).logicalPageSize ∧
      ScalableAllocator.deallocate A x.ptr sys.allocator sys.memory =
        some (sys.allocator.setSegmentAt x.place s', mem') ∧
      TakenBack (A.segmentType x.place) a x.ptr (sys.allocator.segmentAt x.place) sys.memory s' mem' ∧
      HeapsInv A ⟨sys.allocator.setSegmentAt x.place s', mem', sys.live.erase x⟩ built g' ∧
      Spares sys.memory mem' ((sys.live.erase x).map Held.allocation) := by
  obtain ⟨a, ha, hxa, hlo, hhi⟩ := h.page hx
  have hbuilt := (h.held x hx).1
  have haccepted := h.accepted hbuilt hxa
  by_cases hpolicy : (A.segmentType x.place).concurrency = .threadLocal
  · obtain ⟨g', he, hfamily, hpages⟩ := h.family.deallocate_local hbuilt hpolicy (mem_liveAt hx)
    have hsystem := hfamily.system x.place hbuilt
    rw [Function.update_self, Function.update_self, Function.update_self] at hsystem
    obtain ⟨ret, drained, mem'', _, hdrain, _, hd, -⟩ := drain_spec 0 hsystem
    refine ⟨a, _, _, _, ha, hlo, hhi, h.deallocate_eq hx he, ⟨haccepted, fun hne => absurd hpolicy hne,
      fun _ => ⟨rfl, rfl, ret, drained, mem'', hdrain, hd.queue⟩⟩,
      h.given hfamily hx rfl fun b hb => hpages ▸ hb, .of_bytes rfl _⟩
  · obtain ⟨s', mem', g', _, he, hpage, hfamily, ht, _, _, hspares⟩ := h.family.deallocate_direct hbuilt hpolicy
      (mem_liveAt hx) hxa ((h.family.system x.place hbuilt).segment.frees_self hxa)
    refine ⟨a, s', mem', _, ha, hlo, hhi, h.deallocate_eq hx he, ⟨haccepted, fun _ => hpage,
      fun heq => absurd heq hpolicy⟩, h.given hfamily hx ht.config fun b hb => ?_, ?_⟩
    · simpa using ht.pages b hb
    · refine h.spares_held (fun y hy => List.mem_of_mem_erase hy) fun p hp => ?_
      have hall := h.family.spares hbuilt ht (by rintro c ⟨_, hnil, _⟩; cases hnil) hspares hp
      exact fun y hy => hall y ((heldAt_erase hx p).mem_iff.mpr hy)

theorem recycleSegments_ok {ids : List SegmentId} {heap' : SimpleHeapPow2} (h : HeapsInv A sys built g)
    (ho : Built built o) (hm : ∀ id, MarkedEmpty sys.memory (g (o, id)).pages (g (o, id)).owned)
    (he : SimpleHeapPow2.recycleSegments ids (sys.allocator.heapAt o) sys.memory = some (heap', mem')) :
    ∃ g', HeapsInv A ⟨sys.allocator.setHeapAt o heap', mem', sys.live⟩ built g' := by
  induction ids generalizing sys g with
  | nil =>
    cases he
    rw [setHeapAt_self]
    exact ⟨g, h⟩
  | cons id rest ih =>
    rw [SimpleHeapPow2.recycleSegments] at he
    cases hr : Segment.recycleFreeLogicalPages ((sys.allocator.heapAt o).segment id) sys.memory with
    | none =>
      rw [hr] at he
      cases he
    | some r =>
      obtain ⟨s₁, mem₁⟩ := r
      rw [hr] at he
      obtain ⟨released, l', hrecycled⟩ :=
        recycleFreeLogicalPages_spec (h.family.system (o, id) ho).segment (hm id) hr
      have hsub : ∀ a ∈ l', a ∈ (g (o, id)).pages := fun a ha =>
        hrecycled.pages.symm.subset (List.mem_append_left _ ha)
      have h₁ := h.replaced hrecycled.config (h.family.recycled ho hrecycled) h.fits h.held
        fun a ha => .inl (hsub a ha)
      have hm₁ : ∀ id', MarkedEmpty mem₁
          (Function.update g (o, id) { g (o, id) with pages := l' } (o, id')).pages
          (Function.update g (o, id) { g (o, id) with pages := l' } (o, id')).owned := by
        intro id' a ha hflag
        rw [hrecycled.flags a] at hflag
        by_cases hid : id' = id
        · subst hid
          rw [Function.update_self] at ha ⊢
          exact hm id' a (hsub a ha) hflag
        · have hne : (o, id') ≠ (o, id) := fun e => hid (congrArg Prod.snd e)
          rw [Function.update_of_ne hne] at ha ⊢
          exact hm id' a ha hflag
      have hheap : (sys.allocator.setSegmentAt (o, id) s₁).heapAt o =
          (sys.allocator.heapAt o).setSegment id s₁ := heapAt_setHeapAt_self
      obtain ⟨g', hg'⟩ := @ih ⟨sys.allocator.setSegmentAt (o, id) s₁, mem₁, sys.live⟩ _ h₁ hm₁ (hheap ▸ he)
      rw [setSegmentAt, setHeapAt_setHeapAt] at hg'
      exact ⟨g', hg'⟩

end HeapsInv
end

/-- There is nothing to take over from a heap without pages. -/
theorem transferSegments_empty {ids : List SegmentId} {heap source : SimpleHeapPow2} {mem : Memory}
    (h : ∀ id, (source.segment id).head = 0) :
    SimpleHeapPow2.transferSegments ids heap source mem = some (heap, source, mem) := by
  induction ids with
  | nil => rfl
  | cons id rest ih =>
    obtain ⟨n, hn⟩ := Segment.walkLimit_eq
    have hnone : Segment.transferLogicalPagesFrom (source.segment id) (heap.segment id) mem =
        some (heap.segment id, source.segment id, mem) := by
      rw [Segment.transferLogicalPagesFrom, h id, hn]
      exact Segment.transferLoop_zero
    rw [SimpleHeapPow2.transferSegments, hnone]
    dsimp only
    rw [SimpleHeapPow2.setSegment_segment, SimpleHeapPow2.setSegment_segment]
    exact ih

section
variable {A : AllocatorType} {sys sys' : AllocatorSystem} {built : Nat → Prop}
  {g : Option Nat × SegmentId → Ghost} {x : Held} {thread : Nat} {mem' : Memory}

namespace HeapsInv

theorem withThreads {active : Nat} {storage : Nat → Option Nat} (h : HeapsInv A sys built g)
    (hactive : sys.allocator.activeLocalHeapCount ≤ active)
    (hstorage : ∀ thread i, storage thread = some i → built i ∧ i < active) :
    HeapsInv A { sys with allocator := { sys.allocator with
      activeLocalHeapCount := active, threadLocalStorage := storage } } built g :=
  ⟨h.family, h.config, h.fits, fun x hx => ⟨(h.held x hx).1, fun i hi =>
    Nat.lt_of_lt_of_le ((h.held x hx).2 i hi) hactive⟩, h.bigPage, h.bigSize, h.inside, h.outside, hstorage⟩

theorem storage_update {heap : Option Nat} {active : Nat} (h : HeapsInv A sys built g)
    (hactive : sys.allocator.activeLocalHeapCount ≤ active)
    (hheap : ∀ i, heap = some i → built i ∧ i < active) :
    ∀ t i, Function.update sys.allocator.threadLocalStorage thread heap t = some i → built i ∧ i < active := by
  intro t i hi
  by_cases ht : t = thread
  · subst ht
    rw [Function.update_self] at hi
    exact hheap i hi
  · rw [Function.update_of_ne ht] at hi
    obtain ⟨hb, hlt⟩ := h.storage t i hi
    exact ⟨hb, by omega⟩

theorem exit_ok (h : HeapsInv A sys built g) (hc : sys.KeepsIntervals A (.exit thread))
    (hp : sys.perform A (.exit thread) = some sys') :
    HeapsInv A sys' built g ∧ SameSetup sys.allocator sys'.allocator ∧
      sys'.allocator.activeLocalHeapCount = sys.allocator.activeLocalHeapCount := by
  simp only [AllocatorSystem.perform, threadSpecificDestructor] at hp
  cases hstorage : sys.allocator.threadLocalStorage thread with
  | none =>
    rw [hstorage] at hp
    cases hp
    exact ⟨h, .refl _, rfl⟩
  | some i =>
    rw [hstorage] at hp
    have hself : sys.allocator.setLocalHeap i (sys.allocator.localHeaps i) = sys.allocator :=
      setHeapAt_self (o := some i)
    simp only [SimpleHeapPow2.transferLogicalPagesFrom, transferSegments_empty (hc i hstorage), Option.map_some,
      hself, Option.some.injEq] at hp
    subst hp
    exact ⟨h.withThreads le_rfl (h.storage_update le_rfl fun i hi => by cases hi), ⟨rfl, rfl, rfl⟩, rfl⟩

theorem write_ok {bytes : Mem} (h : HeapsInv A sys built g) (hx : x ∈ sys.live)
    (hb : ∀ y, ¬ x.allocation.Holds y → bytes y = sys.memory.bytes y) :
    HeapsInv A { sys with memory.bytes := bytes } built g :=
  ⟨h.family.write (h.held x hx).1 (mem_liveAt hx) hb, h.config, h.fits, h.held, h.bigPage, h.bigSize, h.inside,
    h.outside, h.storage⟩

theorem store_ok {address : Nat} (h : HeapsInv A sys built g) (hx : x ∈ sys.live) (hlo : x.ptr ≤ address)
    (hhi : address < x.ptr + x.size) (value : UInt8) :
    HeapsInv A { sys with memory.bytes := Function.update sys.memory.bytes address value } built g := by
  have hb : x.allocation.Holds address := ⟨hlo, Nat.lt_of_lt_of_le hhi (Nat.add_le_add_left (h.fits x hx) _)⟩
  refine h.write_ok hx fun y hy => Function.update_of_ne ?_ _ _
  rintro rfl
  exact hy hb

end HeapsInv
end
end Metamalloc.Allocator
