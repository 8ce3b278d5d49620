import Metamalloc.Heaps.HeapInvariant

/-! The creation of a heap: the buffer is cut into consecutive pieces, one for each segment. -/
namespace Metamalloc.Heaps
open Library.Word64 Library.ByteMemory Library.LinkedList Pages Segments

def binBytes (params : HeapCreationParams) (i : Fin smallObjectBinCount) : Nat :=
  params.smallObjectBinPageCounts i * params.smallObjectLogicalPageSize

def binsBytes (params : HeapCreationParams) (bins : List (Fin smallObjectBinCount)) : Nat :=
  (bins.map (binBytes params)).sum

def heapBytes (params : HeapCreationParams) : Nat :=
  binsBytes params (List.finRange smallObjectBinCount) + params.bigObjectLogicalPageSize

section
variable {H : HeapType} {params : HeapCreationParams} {queueMemory : SegmentId → Bool}
  {heap heap' : SimpleHeapPow2} {mem mem₀ mem' : Memory} {b index index' sizeClass k : Nat}
  {created : SegmentId → Prop} {g : SegmentId → Ghost}

theorem foldl_add64 {bins : List (Fin smallObjectBinCount)} {start : Nat}
    (h : start + binsBytes params bins < 2^64) :
    bins.foldl (fun ret i => add64 ret (mul64 (params.smallObjectBinPageCounts i)
      params.smallObjectLogicalPageSize)) start = start + binsBytes params bins := by
  induction bins generalizing start with
  | nil => rfl
  | cons i bins ih =>
    rw [binsBytes, List.map_cons, List.sum_cons, ← binsBytes] at h ⊢
    rw [binBytes] at h ⊢
    rw [List.foldl_cons, mul64_of_lt (by omega), add64_of_lt (by omega), ih (by omega), Nat.add_assoc]

theorem calculateRequiredBufferSize_eq (h : heapBytes params < 2^64) :
    SimpleHeapPow2.calculateRequiredBufferSize params = heapBytes params := by
  rw [heapBytes] at h ⊢
  rw [SimpleHeapPow2.calculateRequiredBufferSize, foldl_add64 (by omega), Nat.zero_add, add64_of_lt h]

/-- The state while the buffer at `b` is distributed: so many bytes are used up by the
segments that were created. -/
structure Building (H : HeapType) (params : HeapCreationParams) (b : Nat) (mem₀ : Memory)
    (created : SegmentId → Prop) (index : Nat) (heap : SimpleHeapPow2) (mem : Memory)
    (g : SegmentId → Ghost) : Prop where
  family : FamilyInv H.segmentType H.laws created heap.segment mem (fun _ => []) g
  within : Within mem₀ mem fun c => b ≤ c ∧ c < b + index
  used : ∀ id, created id → ∀ c, region (heap.segment id).logicalPageSize (g id).pages c →
    b ≤ c ∧ c < b + index
  pending : ∀ id, ¬ created id → heap.segment id = {}
  bins : ∀ i, created (.small i) →
    (heap.bins i).logicalPageSize = params.smallObjectLogicalPageSize ∧
    (heap.bins i).sizeClass = binSizeClass i ∧
    (heap.bins i).growCoefficient = params.segmentGrowCoefficient
  address : heap.bufferAddress = b

theorem Building.add (id : SegmentId) {segmentParams : SegmentCreationParameters} {queue : Bool} {s : Segment}
    (h : Building H params b mem₀ created index heap mem g) (hid : ¬ created id)
    (hb : b ≠ 0) (hword : segmentParams.logicalPageSize < 2^64)
    (hinside : b + index + segmentParams.logicalPageCount * segmentParams.logicalPageSize < 2^64)
    (haligned : (H.segmentType id).bufferAlignedToLogicalPageSize = true →
      segmentParams.logicalPageSize ∣ b + index ∧ ∃ k ≤ 64, segmentParams.logicalPageSize = 2^k)
    (hc : Segment.create (H.segmentType id) (add64 b index) queue segmentParams (heap.segment id) mem =
      some (true, s, mem'))
    (hsmall : ∀ i, id = .small i → segmentParams.logicalPageSize = params.smallObjectLogicalPageSize ∧
      segmentParams.sizeClass = binSizeClass i ∧
      segmentParams.growCoefficient = params.segmentGrowCoefficient) :
    Created (H.segmentType id) (H.laws id) segmentParams mem
      (newPages segmentParams.logicalPageSize (b + index) segmentParams.logicalPageCount) s mem' ∧
    Building H params b mem₀ (fun id' => created id' ∨ id' = id)
      (index + segmentParams.logicalPageCount * segmentParams.logicalPageSize) (heap.setSegment id s) mem'
      (Function.update g id ⟨newPages segmentParams.logicalPageSize (b + index)
        segmentParams.logicalPageCount, fun _ => [], [], []⟩) := by
  rw [h.pending id hid, add64_of_lt (by omega)] at hc
  have hfresh : FreshBuffer (H.segmentType id) { logicalPageSize := segmentParams.logicalPageSize } []
      (b + index) segmentParams.logicalPageCount :=
    ⟨by omega, hinside, by simp, fun ha => (haligned ha).1⟩
  have hpower := fun ha => (haligned ha).2
  have hcreated := create_spec (H.laws id) hword hfresh hpower hc
  have hsystem := create_inv (L := H.laws id) hword hfresh hpower hc
  have hregion : ∀ c, region s.logicalPageSize
      (newPages segmentParams.logicalPageSize (b + index) segmentParams.logicalPageCount) c →
      b + index ≤ c ∧ c < b + index + segmentParams.logicalPageCount * segmentParams.logicalPageSize := by
    intro c hc
    rw [hcreated.pageSize] at hc
    exact region_newPages hc
  have hwithin : Within mem mem' (region s.logicalPageSize
      (newPages segmentParams.logicalPageSize (b + index) segmentParams.logicalPageCount)) := by
    rw [hcreated.pageSize]
    exact hcreated.within
  refine ⟨hcreated, ?_, ?_, ?_, ?_, ?_, ?_⟩
  · have hfamily := h.family.add hsystem hwithin fun c hc ⟨id', hid', hc'⟩ => by
      have h1 := hregion c hc
      have h2 := h.used id' hid' c hc'
      omega
    rwa [← segment_setSegment, Function.update_eq_self] at hfamily
  · refine (h.within.mono fun c hc => ?_).trans (hwithin.mono fun c hc => ?_)
    · omega
    · have := hregion c hc
      omega
  · intro id' hid' c hc
    rw [segment_setSegment] at hc
    by_cases he : id' = id
    · subst he
      rw [Function.update_self, Function.update_self] at hc
      have := hregion c hc
      omega
    · rw [Function.update_of_ne he, Function.update_of_ne he] at hc
      have := h.used id' (hid'.resolve_right he) c hc
      omega
  · intro id' hid'
    rw [SimpleHeapPow2.segment_setSegment_of_ne fun e => hid' (.inr e)]
    exact h.pending id' fun e => hid' (.inl e)
  · intro i hi
    by_cases he : SegmentId.small i = id
    · subst he
      obtain ⟨h1, h2, h3⟩ := hsmall i rfl
      have hbin : (heap.setSegment (.small i) s).bins i = s := Function.update_self ..
      rw [hbin]
      exact ⟨hcreated.pageSize.trans h1, hcreated.sizeClass.trans h2, hcreated.growCoefficient.trans h3⟩
    · have hbin : (heap.setSegment id s).bins i = heap.bins i :=
        SimpleHeapPow2.segment_setSegment_of_ne he
      rw [hbin]
      exact h.bins i (hi.resolve_right he)
  · rw [SimpleHeapPow2.bufferAddress_setSegment]
    exact h.address

theorem binsBytes_cons (i : Fin smallObjectBinCount) (bins : List (Fin smallObjectBinCount)) :
    binsBytes params (i :: bins) = binBytes params i + binsBytes params bins := by
  rw [binsBytes, List.map_cons, List.sum_cons, binsBytes]

theorem Building.congr {created' : SegmentId → Prop} (h : Building H params b mem₀ created index heap mem g)
    (hc : ∀ id, created id ↔ created' id) : Building H params b mem₀ created' index heap mem g := by
  obtain rfl : created = created' := funext fun id => propext (hc id)
  exact h

/-- A segment that cannot be created leaves what is beyond its piece alone. -/
theorem Building.failed (id : SegmentId) {segmentParams : SegmentCreationParameters} {queue : Bool}
    {s : Segment} {e : Nat} (h : Building H params b mem₀ created index heap mem g) (hid : ¬ created id)
    (hb : b ≠ 0) (hword : segmentParams.logicalPageSize < 2^64)
    (hinside : b + index + segmentParams.logicalPageCount * segmentParams.logicalPageSize < 2^64)
    (haligned : (H.segmentType id).bufferAlignedToLogicalPageSize = true →
      segmentParams.logicalPageSize ∣ b + index ∧ ∃ k ≤ 64, segmentParams.logicalPageSize = 2^k)
    (hc : Segment.create (H.segmentType id) (add64 b index) queue segmentParams (heap.segment id) mem =
      some (false, s, mem'))
    (he : b + index < e) : Within mem₀ mem' fun c => b ≤ c ∧ c < e := by
  rw [h.pending id hid, add64_of_lt (by omega)] at hc
  have hfresh : FreshBuffer (H.segmentType id) { logicalPageSize := segmentParams.logicalPageSize } []
      (b + index) segmentParams.logicalPageCount :=
    ⟨by omega, hinside, by simp, fun ha => (haligned ha).1⟩
  have hfailed := create_failed (H.laws id) hword hfresh (fun ha => (haligned ha).2) hc
  refine (h.within.mono fun c hc => ?_).trans (hfailed.mono fun c hc => ?_) <;> omega

/-- The loop over the bins: the size class doubles with every bin. -/
theorem createBins_spec {bins : List (Fin smallObjectBinCount)} {n e : Nat} {success : Bool}
    (hbins : (List.finRange smallObjectBinCount).drop n = bins)
    (h : Building H params b mem₀ (fun id => ∃ i, id = .small i ∧ i.val < n) index heap mem g)
    (hb : b ≠ 0) (hpower : params.smallObjectLogicalPageSize = 2^k) (hk : k < 64)
    (hdvd : params.smallObjectLogicalPageSize ∣ b + index)
    (hinside : b + index + binsBytes params bins < e) (he : e < 2^64)
    (hc : SimpleHeapPow2.createBins H params queueMemory bins index (2^(n+4)) heap mem =
      some (success, index', heap', mem')) :
    (Within mem₀ mem' fun c => b ≤ c ∧ c < e) ∧ heap'.bufferAddress = b ∧
      heap'.bufferLength = heap.bufferLength ∧
      heap'.smallObjectLogicalPageSize = heap.smallObjectLogicalPageSize ∧
      (success = true → index' = index + binsBytes params bins ∧
        ∃ g', Building H params b mem₀ (fun id => ∃ i, id = .small i) index' heap' mem' g') := by
  induction bins generalizing n index heap mem g with
  | nil =>
    simp only [SimpleHeapPow2.createBins, Option.some.injEq, Prod.mk.injEq] at hc
    obtain ⟨rfl, rfl, rfl, rfl⟩ := hc
    refine ⟨h.within.mono fun c hc => ⟨hc.1, by omega⟩, h.address, rfl, rfl, fun _ => ⟨rfl, g, ?_⟩⟩
    refine h.congr fun id => ⟨fun ⟨i, hi, _⟩ => ⟨i, hi⟩, fun ⟨i, hi⟩ => ⟨i, hi, ?_⟩⟩
    have hn := List.drop_eq_nil_iff.mp hbins
    rw [List.length_finRange] at hn
    omega
  | cons i rest ih =>
    have hn : n < (List.finRange smallObjectBinCount).length := by
      by_contra hlen
      rw [List.drop_eq_nil_of_le (by omega)] at hbins
      cases hbins
    rw [List.drop_eq_getElem_cons hn, List.cons.injEq, List.getElem_finRange] at hbins
    obtain ⟨hi, hrest⟩ := hbins
    have hin : i.val = n := congrArg Fin.val hi.symm
    have hword : params.smallObjectLogicalPageSize < 2^64 := by
      rw [hpower]
      exact Nat.pow_lt_pow_right (by decide) hk
    have hnew : ¬ ∃ j, SegmentId.small i = .small j ∧ j.val < n := by
      rintro ⟨j, hj, hlt⟩
      cases hj
      omega
    rw [binsBytes_cons, binBytes] at hinside ⊢
    have hpiece : b + index + params.smallObjectBinPageCounts i *
        params.smallObjectLogicalPageSize < 2^64 := by omega
    simp only [SimpleHeapPow2.createBins, h.address] at hc
    split at hc
    · cases hc
    · rename_i s mem₁ hs
      have hroom : b + index < e := by omega
      have hwithin := h.failed (.small i) hnew hb hword hpiece (fun _ => ⟨hdvd, k, hk.le, hpower⟩) hs
        hroom
      cases hc
      exact ⟨hwithin, h.address, rfl, rfl, fun hfalse => by cases hfalse⟩
    · rename_i s mem₁ hs
      have hclass : 2^(n+4) = binSizeClass i := by rw [binSizeClass, hin]
      obtain ⟨_, hnext⟩ := h.add (.small i) hnew hb hword hpiece
        (fun _ => ⟨hdvd, k, hk.le, hpower⟩) hs (fun j hj => by cases hj; exact ⟨rfl, hclass, rfl⟩)
      rw [mul64_of_lt (by omega), add64_of_lt (by omega), Nat.shiftLeft_eq, pow_one, ← Nat.pow_succ,
        show (n + 4).succ = n + 1 + 4 by omega] at hc
      have hdvd' : params.smallObjectLogicalPageSize ∣
          b + (index + params.smallObjectBinPageCounts i * params.smallObjectLogicalPageSize) := by
        rw [← Nat.add_assoc]
        exact Nat.dvd_add hdvd (Nat.dvd_mul_left _ _)
      have hrest' : b + (index + params.smallObjectBinPageCounts i * params.smallObjectLogicalPageSize) +
          binsBytes params rest < e := by omega
      have hcreated : ∀ id : SegmentId, ((∃ j, id = .small j ∧ j.val < n) ∨ id = .small i) ↔
          ∃ j, id = .small j ∧ j.val < n + 1 := by
        intro id
        constructor
        · rintro (⟨j, hj, hlt⟩ | hid)
          · exact ⟨j, hj, by omega⟩
          · exact ⟨i, hid, by omega⟩
        · rintro ⟨j, hj, hlt⟩
          by_cases hjn : j.val = n
          · exact .inr (hj.trans (congrArg SegmentId.small (Fin.ext (hjn.trans hin.symm))))
          · exact .inl ⟨j, hj, by omega⟩
      obtain ⟨hwithin, haddress, hlength, hsize, hall⟩ :=
        ih hrest (hnext.congr hcreated) hdvd' hrest' hc
      refine ⟨hwithin, haddress, hlength, hsize, fun hsuccess => ?_⟩
      obtain ⟨hindex, g', hg'⟩ := hall hsuccess
      exact ⟨hindex.trans (Nat.add_assoc ..), g', hg'⟩

/-- What a successful `create` of a heap over a buffer at `b` leaves. -/
structure HeapCreated (H : HeapType) (params : HeapCreationParams) (b : Nat) (mem : Memory)
    (heap : SimpleHeapPow2) (mem' : Memory) (g : SegmentId → Ghost) : Prop where
  inv : HeapInv H heap mem' (fun _ => []) g
  pageSize : heap.smallObjectLogicalPageSize = params.smallObjectLogicalPageSize
  within : Within mem mem' fun c => b ≤ c ∧ c < b + heapBytes params
  used : ∀ id c, region (heap.segment id).logicalPageSize (g id).pages c →
    b ≤ c ∧ c < b + heapBytes params
  growCoefficient : ∀ i, (heap.bins i).growCoefficient = params.segmentGrowCoefficient
  bigPageSize : heap.bigObjectBin.logicalPageSize = params.bigObjectLogicalPageSize
  bigGrowCoefficient : heap.bigObjectBin.growCoefficient = (SimpleHeapPow2.bigSegmentParams params).growCoefficient
  bigBufferLength : H.concurrency = .threadLocal →
    heap.bigObjectBin.bufferLength = params.bigObjectLogicalPageSize
  bigPages : (g .big).pages.length = 1
  bufferAddress : heap.bufferAddress = b
  bufferLength : heap.bufferLength = heapBytes params

/-- What `create` can end with when the arena has answered `b`. -/
structure HeapOutcome (H : HeapType) (params : HeapCreationParams) (b : Nat) (mem : Memory)
    (success : Bool) (heap : SimpleHeapPow2) (mem' : Memory) : Prop where
  interval : heap.bufferAddress = 0 ∧ heap.bufferLength = 0 ∨
    heap.bufferAddress = b ∧ heap.bufferLength = heapBytes params
  within : Within mem mem' fun c => b ≠ 0 ∧ b ≤ c ∧ c < b + heapBytes params
  created : success = true → b ≠ 0 ∧ ∃ g, HeapCreated H params b mem heap mem' g

theorem createBins_null {i : Fin smallObjectBinCount} {bins : List (Fin smallObjectBinCount)}
    (hb : heap.bufferAddress = 0) :
    SimpleHeapPow2.createBins H params queueMemory (i :: bins) 0 sizeClass heap mem =
      some (false, 0, heap.setSegment (.small i) (heap.bins i), mem) := by
  have hnull : add64 heap.bufferAddress 0 = 0 := by rw [hb, add64_of_lt (by decide)]
  simp [SimpleHeapPow2.createBins, hnull, Segment.create]

/-- The big bin takes the rest of the buffer. -/
theorem create_big_spec {s : Segment} {queue success : Bool} {index : Nat}
    (h : Building H params b mem₀ (fun id => ∃ i, id = .small i) index heap mem g) (hb : b ≠ 0)
    (hindex : index = binsBytes params (List.finRange smallObjectBinCount))
    (hinside : b + heapBytes params < 2^64) (hpos : params.bigObjectLogicalPageSize ≠ 0)
    (hsize : heap.smallObjectLogicalPageSize = params.smallObjectLogicalPageSize)
    (hlength : heap.bufferLength = heapBytes params)
    (hc : Segment.create H.segmentBigObject (add64 heap.bufferAddress index) queue
      (SimpleHeapPow2.bigSegmentParams params) heap.bigObjectBin mem = some (success, s, mem')) :
    HeapOutcome H params b mem₀ success (heap.setSegment .big s) mem' := by
  have hsum : heapBytes params = index + params.bigObjectLogicalPageSize := by
    rw [hindex]
    rfl
  have hone : (SimpleHeapPow2.bigSegmentParams params).logicalPageCount *
    (SimpleHeapPow2.bigSegmentParams params).logicalPageSize = params.bigObjectLogicalPageSize := Nat.one_mul _
  have hword : (SimpleHeapPow2.bigSegmentParams params).logicalPageSize < 2^64 := by
    simp only [SimpleHeapPow2.bigSegmentParams]
    omega
  have hpiece : b + index + (SimpleHeapPow2.bigSegmentParams params).logicalPageCount *
      (SimpleHeapPow2.bigSegmentParams params).logicalPageSize < 2^64 := by omega
  have hnew : ¬ ∃ i, SegmentId.big = .small i := by simp
  rw [h.address] at hc
  cases success with
  | false =>
    have hwithin := h.failed .big hnew hb hword hpiece (fun hal => by cases hal) hc
      (by omega : b + index < b + heapBytes params)
    exact ⟨.inr ⟨h.address, hlength⟩, hwithin.mono fun c hc => ⟨hb, hc⟩, fun hfalse => by cases hfalse⟩
  | true =>
    obtain ⟨hcreated, hall⟩ := h.add .big hnew hb hword hpiece (fun hal => by cases hal) hc
      (fun i hi => by cases hi)
    rw [hone, ← hsum] at hall
    have hfull := hall.congr fun id => show _ ↔ True from ⟨fun _ => trivial, fun _ => by cases id <;> simp⟩
    refine ⟨.inr ⟨h.address, hlength⟩, hfull.within.mono fun c hc => ⟨hb, hc⟩, fun _ => ⟨hb, _,
      ⟨⟨fun i => ?_, fun i => (hfull.bins i trivial).2.1⟩, hfull.family⟩, hsize, hfull.within,
      fun id => hfull.used id trivial, fun i => (hfull.bins i trivial).2.2, hcreated.pageSize,
      hcreated.growCoefficient, fun hlocal => ?_, ?_, hfull.address, hlength⟩⟩
    · exact (hfull.bins i trivial).1.trans hsize.symm
    · have hmul : mul64 params.bigObjectLogicalPageSize 1 = params.bigObjectLogicalPageSize := by
        rw [mul64_of_lt (by omega), Nat.mul_one]
      exact (hcreated.bufferLength hlocal).trans hmul
    · rw [Function.update_self]
      rfl

theorem create_heap_spec {pageAlignment : Nat} {request : Nat → Nat} {success : Bool}
    (hpower : params.smallObjectLogicalPageSize = 2^k) (hbytes : heapBytes params < 2^64)
    (hfresh : request (heapBytes params) ≠ 0 → params.smallObjectLogicalPageSize ∣ request (heapBytes params) ∧
      request (heapBytes params) + heapBytes params < 2^64)
    (hc : SimpleHeapPow2.create H params pageAlignment request queueMemory {} mem =
      some (success, heap', mem')) :
    HeapOutcome H params (request (heapBytes params)) mem success heap' mem' := by
  have hsum : heapBytes params = binsBytes params (List.finRange smallObjectBinCount) +
    params.bigObjectLogicalPageSize := rfl
  simp only [SimpleHeapPow2.create, calculateRequiredBufferSize_eq hbytes] at hc
  split at hc
  · cases hc
    exact ⟨.inl ⟨rfl, rfl⟩, .refl _ _, fun hfalse => by cases hfalse⟩
  rename_i hchecks
  split at hc
  · cases hc
    exact ⟨.inl ⟨rfl, rfl⟩, .refl _ _, fun hfalse => by cases hfalse⟩
  by_cases hb : request (heapBytes params) = 0
  · rw [show List.finRange smallObjectBinCount = 0 :: (List.finRange smallObjectBinCount).tail from rfl,
      createBins_null hb] at hc
    cases hc
    exact ⟨.inr ⟨rfl, rfl⟩, .refl _ _, fun hfalse => by cases hfalse⟩
  obtain ⟨haligned, hinside⟩ := hfresh hb
  have hbig : params.bigObjectLogicalPageSize ≠ 0 := fun h0 =>
    hchecks (.inr (.inr (.inr (.inl h0))))
  have hk : k < 64 := by
    have hle : params.smallObjectLogicalPageSize ≤ params.bigObjectLogicalPageSize := by
      by_contra hlt
      have hdiv := Nat.div_eq_of_lt (Nat.lt_of_not_le hlt)
      simp only [not_or, modulo, hdiv, Nat.zero_mul] at hchecks
      omega
    exact (Nat.pow_lt_pow_iff_right (by decide : 1 < 2)).mp (by rw [← hpower]; omega)
  have hstart : Building H params (request (heapBytes params)) mem
      (fun id => ∃ i : Fin smallObjectBinCount, id = .small i ∧ i.val < 0) 0
      { smallObjectLogicalPageSize := params.smallObjectLogicalPageSize
        bigObjectLogicalPageSize := params.bigObjectLogicalPageSize
        bufferLength := heapBytes params
        bufferAddress := request (heapBytes params) } mem fun _ => ⟨[], fun _ => [], [], []⟩ := by
    refine ⟨⟨by simp, by simp⟩, .refl _ _, by simp, fun id _ => ?_, by simp, rfl⟩
    cases id <;> rfl
  have hroom : request (heapBytes params) + 0 + binsBytes params (List.finRange smallObjectBinCount) <
      request (heapBytes params) + heapBytes params := by omega
  split at hc
  · cases hc
  · rename_i index heap₁ mem₁ hbins
    cases hc
    obtain ⟨hwithin, haddress, hlength, _, _⟩ :=
      createBins_spec List.drop_zero hstart hb hpower hk haligned hroom hinside hbins
    exact ⟨.inr ⟨haddress, hlength⟩, hwithin.mono fun c hc => ⟨hb, hc⟩, fun hfalse => by cases hfalse⟩
  · rename_i index heap₁ mem₁ hbins
    obtain ⟨⟨success, s, mem₂⟩, hcreate, he⟩ := Option.map_eq_some_iff.mp hc
    simp only [Prod.mk.injEq] at he
    obtain ⟨rfl, rfl, rfl⟩ := he
    obtain ⟨_, _, hlength, hsize, hall⟩ :=
      createBins_spec List.drop_zero hstart hb hpower hk haligned hroom hinside hbins
    obtain ⟨hindex, g, hbuilding⟩ := hall rfl
    rw [Nat.zero_add] at hindex
    exact create_big_spec hbuilding hb hindex hinside hbig hsize hlength hcreate

/-- Bins without pages are created without following a list. -/
theorem createBins_returns {bins : List (Fin smallObjectBinCount)} (hnodup : bins.Nodup)
    (hempty : ∀ i ∈ bins, (heap.bins i).head = 0) :
    ∃ r, SimpleHeapPow2.createBins H params queueMemory bins index sizeClass heap mem = some r ∧
      r.2.2.1.bigObjectBin = heap.bigObjectBin := by
  induction bins generalizing index sizeClass heap mem with
  | nil => exact ⟨_, rfl, rfl⟩
  | cons i rest ih =>
    rw [SimpleHeapPow2.createBins]
    obtain ⟨⟨success, s, mem'⟩, hcreate⟩ := create_returns (hempty i List.mem_cons_self)
    rw [hcreate]
    cases success with
    | false => exact ⟨_, rfl, rfl⟩
    | true =>
      refine ih hnodup.of_cons fun j hj => ?_
      have hne : j ≠ i := fun heq => hnodup.notMem (heq ▸ hj)
      have hsame : ((heap.setSegment (.small i) s).bins j) = heap.bins j := Function.update_of_ne hne ..
      rw [hsame]
      exact hempty j (List.mem_cons_of_mem _ hj)

theorem create_heap_returns {pageAlignment : Nat} {request : Nat → Nat} :
    ∃ r, SimpleHeapPow2.create H params pageAlignment request queueMemory {} mem = some r := by
  rw [SimpleHeapPow2.create]
  split
  · exact ⟨_, rfl⟩
  split
  · exact ⟨_, rfl⟩
  dsimp only
  obtain ⟨⟨success, index, heap, mem'⟩, hbins, hbig⟩ := @createBins_returns H params queueMemory
    { smallObjectLogicalPageSize := params.smallObjectLogicalPageSize
      bigObjectLogicalPageSize := params.bigObjectLogicalPageSize
      bufferLength := SimpleHeapPow2.calculateRequiredBufferSize params
      bufferAddress := request (SimpleHeapPow2.calculateRequiredBufferSize params) } mem 0
    smallObjectMinSizeClass (List.finRange smallObjectBinCount) (List.nodup_finRange _) fun _ _ => rfl
  rw [hbins]
  cases success with
  | false => exact ⟨_, rfl⟩
  | true =>
    have hhead : heap.bigObjectBin.head = 0 := congrArg Segment.head hbig
    obtain ⟨r, hcreate⟩ := create_returns hhead
    dsimp only
    rw [hcreate]
    exact ⟨_, rfl⟩

end
end Metamalloc.Heaps
