import Metamalloc.Heaps.SimpleHeapPow2
import Metamalloc.Segments.SegmentFamily

/-! The nine segments of a heap as one family, and the dispatch of its two operations. -/
namespace Metamalloc.Heaps
open Library.Word64 Library.ByteMemory Library.LinkedList Pages Segments

/-- What `create` has set in a heap for good. -/
structure HeapConfig (heap : SimpleHeapPow2) : Prop where
  pageSize : ∀ i, (heap.bins i).logicalPageSize = heap.smallObjectLogicalPageSize
  sizeClass : ∀ i, (heap.bins i).sizeClass = binSizeClass i

/-- All segments of the heap exist, keep their invariants and share no address. -/
structure HeapInv (H : HeapType) (heap : SimpleHeapPow2) (mem : Memory)
    (live : SegmentId → List Allocation) (g : SegmentId → Ghost) : Prop where
  config : HeapConfig heap
  family : FamilyInv H.segmentType H.laws (fun _ => True) heap.segment mem live g

section
variable {H : HeapType} {heap : SimpleHeapPow2} {mem : Memory} {live : SegmentId → List Allocation}
  {g : SegmentId → Ghost} {id : SegmentId} {x : Allocation} {a ptr : Nat} {s' : Segment}

theorem segment_setSegment : (heap.setSegment id s').segment = Function.update heap.segment id s' := by
  funext id'
  by_cases h : id' = id
  · subst h
    rw [Function.update_self, SimpleHeapPow2.segment_setSegment_self]
  · rw [Function.update_of_ne h, SimpleHeapPow2.segment_setSegment_of_ne h]

theorem deallocate_of_target {mem' : Memory}
    (htarget : SimpleHeapPow2.pointerTarget H ptr heap mem = some id)
    (he : Segment.deallocate (H.segmentType id) ptr (heap.segment id) mem = some (s', mem')) :
    SimpleHeapPow2.deallocate H ptr heap mem = some (heap.setSegment id s', mem') := by
  simp only [SimpleHeapPow2.deallocate, htarget, he, Option.map_some]

theorem HeapConfig.setSegment (h : HeapConfig heap)
    (hs : s'.toSegmentConfig = (heap.segment id).toSegmentConfig) : HeapConfig (heap.setSegment id s') := by
  cases id with
  | big => exact ⟨h.pageSize, h.sizeClass⟩
  | small j =>
    have hbin : ∀ i, (Function.update heap.bins j s' i).toSegmentConfig = (heap.bins i).toSegmentConfig := by
      intro i
      by_cases hi : i = j
      · subst hi
        rw [Function.update_self]
        exact hs
      · rw [Function.update_of_ne hi]
    refine ⟨fun i => ?_, fun i => ?_⟩
    · exact (congrArg SegmentConfig.logicalPageSize (hbin i)).trans (h.pageSize i)
    · exact (congrArg SegmentConfig.sizeClass (hbin i)).trans (h.sizeClass i)

namespace HeapInv

theorem system (h : HeapInv H heap mem live g) (id : SegmentId) :
    SystemInv (H.segmentType id) (H.laws id) (atRest (heap.segment id) mem (live id)) (g id) :=
  h.family.system id trivial

theorem segmentInv (h : HeapInv H heap mem live g) (id : SegmentId) :
    SegmentInv (H.segmentType id) (H.laws id) (heap.segment id) mem (g id).pages (g id).owned :=
  (h.system id).segment

theorem owner (h : HeapInv H heap mem live g) (hx : x ∈ live id) :
    ∃ a ∈ (g id).pages, x ∈ (g id).owned a ∧ a ≤ x.ptr ∧
      x.ptr < a + (heap.segment id).logicalPageSize := by
  obtain ⟨a, ha, hxa⟩ := (h.system id).owner (x := x) (by
    have : 0 < (atRest (heap.segment id) mem (live id)).live.count x := List.count_pos_iff.mpr hx
    omega)
  have hin := (h.segmentInv id).owned_inside hxa
  exact ⟨a, ha, hxa, by omega, by omega⟩

theorem granularity (h : HeapInv H heap mem live g) : 4096 ∣ heap.smallObjectLogicalPageSize := by
  rw [← h.config.pageSize 0]
  exact Nat.dvd_of_mod_eq_zero (h.segmentInv (.small 0)).geometry.multiple

theorem aligned_dvd (h : HeapInv H heap mem live g) (id : SegmentId)
    (hal : (H.segmentType id).bufferAlignedToLogicalPageSize = true) :
    (heap.segment id).logicalPageSize ∣ heap.smallObjectLogicalPageSize := by
  cases id with
  | small i => exact (h.config.pageSize i).dvd
  | big => cases hal

theorem owned_aligned (h : HeapInv H heap mem live g) (howned : x ∈ (g id).owned a) : x.ptr % 16 = 0 := by
  have hinv := h.segmentInv id
  have ha := hinv.mem_of_owned howned
  refine (H.laws id).aligned (hinv.page a ha) (fun hany => ?_) howned
  obtain ⟨hstart, _, hclass⟩ := hinv.frame a ha
  have hsize := hinv.geometry.multiple
  have hobject := (H.laws id).objectSize_eq
  simp only [Memory.page]
  rw [hstart, hclass, hobject]
  cases id with
  | big => cases hany
  | small i =>
    have hdvd := hinv.aligned rfl a ha
    have h4096 : 4096 ∣ a := (Nat.dvd_of_mod_eq_zero hsize).trans hdvd
    refine ⟨by simp only [logicalPageHeaderSize]; omega, ?_⟩
    have hbin : (heap.segment (.small i)).sizeClass = binSizeClass i := h.config.sizeClass i
    rw [hbin, binSizeClass, Nat.pow_add]
    omega

/-- The bit mask leads to the header of the page, which names the bin. -/
theorem getSizeClassFromAddress {i : Fin smallObjectBinCount} (h : HeapInv H heap mem live g)
    (ha : a ∈ (g (.small i)).pages) (hlo : a ≤ ptr) (hhi : ptr < a + (heap.bins i).logicalPageSize) :
    Segment.getSizeClassFromAddress ptr heap.smallObjectLogicalPageSize mem = binSizeClass i := by
  have hpage : Segment.getLogicalPageFromAddress ptr (heap.bins i).logicalPageSize = a :=
    (h.segmentInv (.small i)).getLogicalPageFromAddress rfl ha hlo hhi
  rw [Segment.getSizeClassFromAddress, ← h.config.pageSize i, hpage]
  exact ((h.segmentInv (.small i)).frame a ha).2.2.trans (h.config.sizeClass i)

/-- The search through the pages of the big bin tells big objects from small ones. -/
theorem ownsPointer_big (h : HeapInv H heap mem live g) (hdirect : H.concurrency ≠ .threadLocal)
    (ha : a ∈ (g id).pages) (hlo : a ≤ ptr) (hhi : ptr < a + (heap.segment id).logicalPageSize) :
    Segment.ownsPointer H.segmentBigObject ptr heap.bigObjectBin mem = some (decide (id = .big)) := by
  have hpolicy : H.segmentBigObject.concurrency ≠ .threadLocal := hdirect
  rw [Segment.ownsPointer, if_neg hpolicy]
  cases id with
  | big =>
    have hfind : Segment.findLogicalPage heap.bigObjectBin.logicalPageSize ptr mem walkLimit
        heap.bigObjectBin.head = some a := (h.segmentInv .big).findLogicalPage ha hlo hhi
    have hne := (h.segmentInv .big).listed.ne_zero ha
    simp [hfind, hne]
  | small i =>
    have hnot := h.family.apart (.small i) .big trivial trivial (by simp) ptr ⟨a, ha, hlo, hhi⟩
    have hfind : Segment.findLogicalPage heap.bigObjectBin.logicalPageSize ptr mem walkLimit
        heap.bigObjectBin.head = some 0 := (h.segmentInv .big).findLogicalPage_of_not_region hnot
    simp [hfind]

/-- The dispatch of `deallocate` leads to the segment whose page the address lies on. -/
theorem pointerTarget_eq (h : HeapInv H heap mem live g) (hdirect : H.concurrency ≠ .threadLocal)
    (ha : a ∈ (g id).pages) (hlo : a ≤ ptr) (hhi : ptr < a + (heap.segment id).logicalPageSize) :
    SimpleHeapPow2.pointerTarget H ptr heap mem = some id := by
  rw [SimpleHeapPow2.pointerTarget, h.ownsPointer_big hdirect ha hlo hhi, Option.map_some]
  cases id with
  | big => simp
  | small i =>
    rw [h.getSizeClassFromAddress ha hlo hhi, getPow2BinIndexFromSize_binSizeClass]
    simp

/-- The interval test of a thread-local big bin is right, or the bin has lost its page. -/
theorem ownsPointer_local (h : HeapInv H heap mem live g) (hlocal : H.concurrency = .threadLocal)
    (hbin : heap.bigObjectBin.bufferLength = heap.bigObjectBin.logicalPageSize ∧ (g .big).pages.length ≤ 1)
    (ha : a ∈ (g id).pages) (hlo : a ≤ ptr) (hhi : ptr < a + (heap.segment id).logicalPageSize) :
    Segment.ownsPointer H.segmentBigObject ptr heap.bigObjectBin mem = some (decide (id = .big)) ∨
      heap.bigObjectBin.head = 0 ∧ ptr < heap.bigObjectBin.logicalPageSize ∧
        Segment.ownsPointer H.segmentBigObject ptr heap.bigObjectBin mem = some true := by
  have hpolicy : H.segmentBigObject.concurrency = .threadLocal := hlocal
  obtain ⟨hlength, hone⟩ := hbin
  have hbig := h.segmentInv .big
  rw [Segment.ownsPointer, if_pos hpolicy, hlength]
  cases hpages : (g .big).pages with
  | nil =>
    have hid : id ≠ .big := by
      rintro rfl
      rw [hpages] at ha
      cases ha
    have hhead : heap.bigObjectBin.head = 0 := hbig.listed.head_eq_zero_iff.mpr hpages
    have hword : 0 + heap.bigObjectBin.logicalPageSize < 2^64 := by
      rw [Nat.zero_add]
      exact hbig.geometry.word
    rw [decide_eq_false hid, hhead, add64_of_lt hword, Nat.zero_add]
    by_cases hlow : ptr < heap.bigObjectBin.logicalPageSize
    · exact .inr ⟨rfl, hlow, by simp [hlow]⟩
    · exact .inl (by simp [hlow])
  | cons b rest =>
    obtain rfl : rest = [] := by
      rw [hpages, List.length_cons] at hone
      exact List.length_eq_zero_iff.mp (by omega)
    have hb : b ∈ (g .big).pages := by
      rw [hpages]
      exact List.mem_cons_self
    have hhead : heap.bigObjectBin.head = b := by
      have hpath := hbig.listed.paths.1
      rw [hpages] at hpath
      exact hpath.1
    have hinside : b + heap.bigObjectBin.logicalPageSize < 2^64 := hbig.inside b hb
    rw [hhead, add64_of_lt hinside]
    refine .inl ?_
    cases id with
    | big =>
      rw [hpages, List.mem_singleton] at ha
      subst ha
      have hhi' : ptr < a + heap.bigObjectBin.logicalPageSize := hhi
      simp [hlo, hhi']
    | small i =>
      have hnot := h.family.apart (.small i) .big trivial trivial (by simp) ptr ⟨a, ha, hlo, hhi⟩
      have htest : ¬ (b ≤ ptr ∧ ptr < b + heap.bigObjectBin.logicalPageSize) := fun hin =>
        hnot ⟨b, hb, hin⟩
      simpa using htest

/-- Where `deallocate` sends a pointer: to its segment, or to a big bin that has lost its page. -/
theorem pointerTarget_cases (h : HeapInv H heap mem live g)
    (hbin : H.concurrency = .threadLocal →
      heap.bigObjectBin.bufferLength = heap.bigObjectBin.logicalPageSize ∧ (g .big).pages.length ≤ 1)
    (ha : a ∈ (g id).pages) (hlo : a ≤ ptr) (hhi : ptr < a + (heap.segment id).logicalPageSize) :
    SimpleHeapPow2.pointerTarget H ptr heap mem = some id ∨
      heap.bigObjectBin.head = 0 ∧ ptr < heap.bigObjectBin.logicalPageSize ∧
        SimpleHeapPow2.pointerTarget H ptr heap mem = some .big := by
  by_cases hlocal : H.concurrency = .threadLocal
  · rcases h.ownsPointer_local hlocal (hbin hlocal) ha hlo hhi with howns | ⟨hhead, hlow, howns⟩
    · refine .inl ?_
      rw [SimpleHeapPow2.pointerTarget, howns, Option.map_some]
      cases id with
      | big => simp
      | small i =>
        rw [h.getSizeClassFromAddress ha hlo hhi, getPow2BinIndexFromSize_binSizeClass]
        simp
    · refine .inr ⟨hhead, hlow, ?_⟩
      rw [SimpleHeapPow2.pointerTarget, howns]
      rfl
  · exact .inl (h.pointerTarget_eq hlocal ha hlo hhi)

end HeapInv
end
end Metamalloc.Heaps
