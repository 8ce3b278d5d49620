import Metamalloc.Allocator.HeapIntervals

/-! New heaps in the metadata buffer, created ahead by `create` or for a thread that asks: their
intervals take in their own pages and nothing that was there before. -/
namespace Metamalloc.Allocator
open Library.Word64 Library.ByteMemory Library.LinkedList Pages Segments Heaps ScalableAllocator

theorem ownsPointer_iff {heap : SimpleHeapPow2} {b length c : Nat} (hb : heap.bufferAddress = b)
    (hlength : heap.bufferLength = length) (hinside : b + length < 2^64) :
    heap.ownsPointer c = true ↔ b ≤ c ∧ c < b + length := by
  rw [SimpleHeapPow2.ownsPointer, hb, hlength, add64_of_lt hinside]
  simp

/-- The interval of a heap, created or not, takes in no page that was there before. -/
theorem HeapOutcome.interval_apart {H : HeapType} {params : HeapCreationParams} {b c alignment : Nat}
    {avoid : Nat → Prop} {mem mem' : Memory} {success : Bool} {heap : SimpleHeapPow2}
    (h : HeapOutcome H params b mem success heap mem') (hbytes : heapBytes params < 2^64)
    (hfresh : b ≠ 0 → FreshFor alignment avoid b (heapBytes params)) (hc : avoid c)
    (hlow : heapBytes params ≤ c) :
    heap.ownsPointer c = false := by
  have hfalse : ∀ b length, heap.bufferAddress = b → heap.bufferLength = length → b + length < 2^64 →
      ¬ (b ≤ c ∧ c < b + length) → heap.ownsPointer c = false := by
    intro b length hb hlength hinside hnot
    exact Bool.eq_false_iff.mpr fun howns => hnot ((ownsPointer_iff hb hlength hinside).mp howns)
  rcases h.interval with ⟨hb, hlength⟩ | ⟨hb, hlength⟩
  · exact hfalse 0 0 hb hlength (by decide) (by omega)
  · by_cases h0 : b = 0
    · subst h0
      exact hfalse 0 _ hb hlength (by omega) (by omega)
    · have hapart := (hfresh h0).apart c hc
      exact hfalse b _ hb hlength (hfresh h0).inside (by omega)

section
variable {A : AllocatorType} {sys sys' : AllocatorSystem} {built : Nat → Prop}
  {g : Option Nat × SegmentId → Ghost} {mem' : Memory} {heap : SimpleHeapPow2} {i b : Nat} {success : Bool}

/-- Nobody holds anything of a heap that does not exist. -/
theorem HeapsInv.heldAt_nil (h : HeapsInv A sys built g) (hi : ¬ built i) (id : SegmentId) :
    heldAt sys.live (some i, id) = [] := by
  have hnone : sys.live.filter (fun x => x.place = (some i, id)) = [] := by
    refine List.filter_eq_nil_iff.mpr fun x hx hplace => hi ?_
    have howner : x.owner = some i := congrArg Prod.fst (of_decide_eq_true hplace)
    have hbuilt := (h.held x hx).1
    rwa [howner] at hbuilt
  simp only [heldAt, liveAt, hnone, List.map_nil]

def withHeap (built : Nat → Prop) (success : Bool) (i j : Nat) : Prop := built j ∨ success = true ∧ j = i

def withGhosts (g : Option Nat × SegmentId → Ghost) (i : Nat) (new : SegmentId → Ghost)
    (p : Option Nat × SegmentId) : Ghost := if p.1 = some i then new p.2 else g p

theorem built_withHeap {o : Option Nat} (h : Built (withHeap built success i) o) :
    Built built o ∨ success = true ∧ o = some i := by
  cases o with
  | none => exact .inl trivial
  | some j =>
    rcases h with h | ⟨hs, rfl⟩
    · exact .inl h
    · exact .inr ⟨hs, rfl⟩

theorem segmentAt_placed {a : ScalableAllocator} (p : Option Nat × SegmentId) (hp : p.1 ≠ some i) :
    (a.setHeapAt (some i) heap).segmentAt p = a.segmentAt p := by
  rw [segmentAt, heapAt_setHeapAt_of_ne hp]
  rfl

theorem localHeaps_placed {a : ScalableAllocator} {j : Nat} (hj : j ≠ i) :
    (a.setHeapAt (some i) heap).localHeaps j = a.localHeaps j := Function.update_of_ne hj ..

theorem localHeaps_placed_self {a : ScalableAllocator} : (a.setHeapAt (some i) heap).localHeaps i = heap :=
  Function.update_self ..

/-- What is known when a heap is placed at `i`, whether it could be created or not. -/
structure Placed (A : AllocatorType) (sys : AllocatorSystem) (built : Nat → Prop)
    (g : Option Nat × SegmentId → Ghost) (i b : Nat) (success : Bool) (heap : SimpleHeapPow2) (mem' : Memory)
    (new : SegmentId → Ghost) : Prop where
  inv : HeapsInv A sys built g
  policy : A.localHeap.concurrency = .threadLocal
  vacant : ¬ built i
  bytes : heapBytes sys.allocator.localHeapCreationParams < 2^64
  outcome : HeapOutcome A.localHeap sys.allocator.localHeapCreationParams b sys.memory success heap mem'
  fresh : b ≠ 0 → FreshFor sys.allocator.arenaPageAlignment
    (Segments.Mapped (fun p => Built built p.1) sys.allocator.segmentAt g) b
    (heapBytes sys.allocator.localHeapCreationParams)
  free : b ≠ 0 → sys.Unclaimed b (heapBytes sys.allocator.localHeapCreationParams)
  created : success = true → b ≠ 0 ∧
    sys.allocator.localHeapCreationParams.smallObjectLogicalPageSize = sys.allocator.arenaPageAlignment ∧
    HeapCreated A.localHeap sys.allocator.localHeapCreationParams b sys.memory heap mem' new

namespace Placed
variable {new : SegmentId → Ghost} {p : Option Nat × SegmentId} {c : Nat}

theorem ne_place (h : Placed A sys built g i b success heap mem' new) (hp : Built built p.1) :
    p.1 ≠ some i := by
  intro he
  rw [he] at hp
  exact h.vacant hp

/-- A page belongs to a heap that was there before, or lies in the buffer of the new one. -/
theorem region_cases (h : Placed A sys built g i b success heap mem' new)
    (hp : Built (withHeap built success i) p.1)
    (hc : region ((sys.allocator.setHeapAt (some i) heap).segmentAt p).logicalPageSize
      (withGhosts g i new p).pages c) :
    Built built p.1 ∧ region (sys.allocator.segmentAt p).logicalPageSize (g p).pages c ∨
      success = true ∧ p.1 = some i ∧ b ≤ c ∧ c < b + heapBytes sys.allocator.localHeapCreationParams := by
  rcases built_withHeap hp with hold | ⟨hs, hi⟩
  · have hne := h.ne_place hold
    rw [segmentAt_placed p hne, withGhosts, if_neg hne] at hc
    exact .inl ⟨hold, hc⟩
  · obtain ⟨_, _, hcreated⟩ := h.created hs
    rw [segmentAt, hi, heapAt_setHeapAt_self, withGhosts, if_pos hi] at hc
    exact .inr ⟨hs, hi, hcreated.used p.2 c hc⟩

theorem not_mapped (h : Placed A sys built g i b success heap mem' new)
    (hc : b ≠ 0 ∧ b ≤ c ∧ c < b + heapBytes sys.allocator.localHeapCreationParams) :
    ¬ Segments.Mapped (fun p => Built built p.1) sys.allocator.segmentAt g c := by
  intro hmapped
  have hapart := (h.fresh hc.1).apart c hmapped
  omega

theorem spares (h : Placed A sys built g i b success heap mem' new) :
    Spares sys.memory mem' (sys.live.map Held.allocation) :=
  h.inv.spares_held (fun _ hx => hx) fun p hp =>
    (h.inv.family.system p hp).spares_of_within h.outcome.within fun _ hc hR => h.not_mapped hR ⟨p, hp, hc⟩

theorem family (h : Placed A sys built g i b success heap mem' new) :
    FamilyInv A.segmentType A.laws (fun p => Built (withHeap built success i) p.1)
      (sys.allocator.setHeapAt (some i) heap).segmentAt mem' (heldAt sys.live) (withGhosts g i new) := by
  have hnew : FamilyInv A.segmentType A.laws (fun p => success = true ∧ p.1 = some i)
      (sys.allocator.setHeapAt (some i) heap).segmentAt mem' (heldAt sys.live) (withGhosts g i new) := by
    refine ⟨?_, ?_⟩
    · rintro ⟨o, id⟩ ⟨hs, rfl⟩
      obtain ⟨_, _, hcreated⟩ := h.created hs
      rw [segmentAt, heapAt_setHeapAt_self, withGhosts, if_pos rfl, h.inv.heldAt_nil h.vacant]
      exact hcreated.inv.family.system id trivial
    · rintro ⟨o, id⟩ ⟨o', id'⟩ ⟨hs, rfl⟩ ⟨_, rfl⟩ hne c
      obtain ⟨_, _, hcreated⟩ := h.created hs
      rw [segmentAt, segmentAt, heapAt_setHeapAt_self, withGhosts, withGhosts, if_pos rfl, if_pos rfl]
      exact hcreated.inv.family.apart id id' trivial trivial (fun e => hne (congrArg _ e)) c
  refine (h.inv.family.extend h.outcome.within (fun c hc hR => ?_) hnew ?_ fun p hp => ?_).mono
    fun p hp => built_withHeap hp
  · exact h.not_mapped hR hc
  · rintro ⟨o, id⟩ ⟨hs, rfl⟩ c hc
    obtain ⟨hb, _, hcreated⟩ := h.created hs
    rw [segmentAt, heapAt_setHeapAt_self, withGhosts, if_pos rfl] at hc
    exact ⟨hb, hcreated.used id c hc⟩
  · have hne := h.ne_place hp
    exact ⟨segmentAt_placed p hne, rfl, if_neg hne⟩

theorem heapsInv (h : Placed A sys built g i b success heap mem' new) :
    HeapsInv A ⟨sys.allocator.setHeapAt (some i) heap, mem', sys.live⟩ (withHeap built success i)
      (withGhosts g i new) := by
  have hsame : SameMembers sys.allocator (sys.allocator.setHeapAt (some i) heap) := sameMembers_setHeapAt
  refine ⟨h.family, fun o ho => ?_, h.inv.fits, fun x hx => ?_, fun j hj => ?_, fun j hj => ?_,
    fun p c j hp hj hc => ?_, fun p c hp hc => ?_, fun thread j hj => ?_⟩
  · rw [hsame.alignment]
    rcases built_withHeap ho with hold | ⟨hs, rfl⟩
    · rw [heapAt_setHeapAt_of_ne (h.ne_place (p := (o, .big)) hold)]
      exact h.inv.config o hold
    · obtain ⟨_, halign, hcreated⟩ := h.created hs
      rw [heapAt_setHeapAt_self]
      exact ⟨hcreated.inv.config, hcreated.pageSize.trans halign⟩
  · obtain ⟨hbuilt, hactive⟩ := h.inv.held x hx
    rw [hsame.active]
    refine ⟨?_, hactive⟩
    cases howner : x.owner with
    | none => trivial
    | some j =>
      rw [howner] at hbuilt
      exact .inl hbuilt
  · rcases hj with hj | ⟨hs, rfl⟩
    · have hne := h.ne_place (p := (some j, .big)) hj
      rw [segmentAt_placed _ hne, withGhosts, if_neg hne]
      exact h.inv.bigPage j hj
    · obtain ⟨_, _, hcreated⟩ := h.created hs
      rw [segmentAt, heapAt_setHeapAt_self, withGhosts, if_pos rfl]
      exact ⟨(hcreated.bigBufferLength h.policy).trans hcreated.bigPageSize.symm, hcreated.bigPages.le⟩
  · rw [hsame.params]
    rcases hj with hj | ⟨hs, rfl⟩
    · rw [segmentAt_placed _ (h.ne_place (p := (some j, .big)) hj)]
      exact h.inv.bigSize j hj
    · obtain ⟨_, _, hcreated⟩ := h.created hs
      rw [segmentAt, heapAt_setHeapAt_self]
      exact hcreated.bigPageSize.trans_le (Nat.le_add_left ..)
  · rcases h.region_cases (hp ▸ hj) hc with ⟨hold, hc⟩ | ⟨hs, hi, hin⟩
    · have hne := h.ne_place hold
      rw [hp] at hold hne
      rw [localHeaps_placed fun e => hne (congrArg some e)]
      exact h.inv.inside p c j hp hold hc
    · obtain rfl : j = i := Option.some.inj (hp.symm.trans hi)
      obtain ⟨hb, _, hcreated⟩ := h.created hs
      rw [localHeaps_placed_self]
      exact (ownsPointer_iff hcreated.bufferAddress hcreated.bufferLength (h.fresh hb).inside).mpr hin
  · rw [hsame.params]
    rcases h.region_cases hp hc with ⟨hold, hregion⟩ | ⟨hs, hi, hin⟩
    · obtain ⟨hlow, hout⟩ := h.inv.outside p c hold hregion
      refine ⟨hlow, fun j hj => ?_⟩
      by_cases hji : j = i
      · subst hji
        rw [localHeaps_placed_self]
        exact HeapOutcome.interval_apart h.outcome h.bytes h.fresh ⟨p, hold, hregion⟩ hlow
      · rw [localHeaps_placed hji]
        exact hout j hj
    · obtain ⟨hb, _, _⟩ := h.created hs
      have hfree := h.free hb c hin.1 hin.2
      simp only [Claimed, not_or, not_lt, not_exists, Bool.not_eq_true] at hfree
      refine ⟨hfree.1, fun j hj => ?_⟩
      rw [localHeaps_placed fun e => hj (by rw [hi, e])]
      exact hfree.2 j
  · rw [hsame.storage] at hj
    rw [hsame.active]
    exact ⟨.inl (h.inv.storage thread j hj).1, (h.inv.storage thread j hj).2⟩

end Placed

/-- `create` of a heap over a fresh buffer or without one, for any page size. -/
theorem create_outcome {H : HeapType} {params : HeapCreationParams} {alignment : Nat} {avoid : Nat → Prop}
    {request : Nat → Nat} {queueMemory : SegmentId → Bool} {mem : Memory}
    (hpower : ∃ k, params.smallObjectLogicalPageSize = 2^k) (hbytes : heapBytes params < 2^64)
    (hfresh : request (heapBytes params) ≠ 0 →
      FreshFor alignment avoid (request (heapBytes params)) (heapBytes params))
    (hc : SimpleHeapPow2.create H params alignment request queueMemory {} mem = some (success, heap, mem')) :
    HeapOutcome H params (request (heapBytes params)) mem success heap mem' ∧
      (success = true → params.smallObjectLogicalPageSize = alignment) := by
  by_cases halign : params.smallObjectLogicalPageSize = alignment
  · obtain ⟨k, hk⟩ := hpower
    subst halign
    exact ⟨create_heap_spec hk hbytes (fun hb => ⟨(hfresh hb).aligned, (hfresh hb).inside⟩) hc, fun _ => rfl⟩
  · have hrefused : SimpleHeapPow2.create H params alignment request queueMemory {} mem =
        some (false, {}, mem) :=
      if_pos (.inr (.inr (.inl (Ne.symm halign))))
    rw [hrefused] at hc
    cases hc
    exact ⟨⟨.inl ⟨rfl, rfl⟩, .refl _ _, fun hfalse => by cases hfalse⟩, fun hfalse => by cases hfalse⟩

theorem HeapsInv.createLocalHeap {answers : HeapAnswers} {a' : ScalableAllocator} {slot : Option Nat}
    (h : HeapsInv A sys built g) (hpolicy : A.localHeap.concurrency = .threadLocal) (hvacant : ¬ built i)
    (hpower : ∃ k, sys.allocator.localHeapCreationParams.smallObjectLogicalPageSize = 2^k)
    (hbytes : heapBytes sys.allocator.localHeapCreationParams < 2^64)
    (hb : answers.request (heapBytes sys.allocator.localHeapCreationParams) = b)
    (hfresh : b ≠ 0 → FreshFor sys.allocator.arenaPageAlignment
      (Segments.Mapped (fun p => Built built p.1) sys.allocator.segmentAt g) b
      (heapBytes sys.allocator.localHeapCreationParams))
    (hfree : b ≠ 0 → sys.Unclaimed b (heapBytes sys.allocator.localHeapCreationParams))
    (hc : ScalableAllocator.createLocalHeap A answers i sys.allocator sys.memory = some (slot, a', mem')) :
    ∃ success heap new, slot = (if success = true then some i else none) ∧
      a' = sys.allocator.setHeapAt (some i) heap ∧ Placed A sys built g i b success heap mem' new := by
  subst hb
  obtain ⟨⟨success, heap, mem₁⟩, hcreate, he⟩ := Option.map_eq_some_iff.mp hc
  simp only [Prod.mk.injEq] at he
  obtain ⟨rfl, rfl, rfl⟩ := he
  obtain ⟨houtcome, halign⟩ := create_outcome hpower hbytes hfresh hcreate
  obtain ⟨new, hnew⟩ : ∃ new, success = true → _ ∧ HeapCreated A.localHeap
      sys.allocator.localHeapCreationParams _ sys.memory heap mem₁ new := by
    cases success with
    | false => exact ⟨fun _ => ⟨[], fun _ => [], [], []⟩, fun hfalse => by cases hfalse⟩
    | true =>
      obtain ⟨hb, new, hcreated⟩ := houtcome.created rfl
      exact ⟨new, fun _ => ⟨hb, hcreated⟩⟩
  exact ⟨success, heap, new, rfl, rfl, h, hpolicy, hvacant, hbytes, houtcome, hfresh, hfree,
    fun hs => ⟨(hnew hs).1, halign hs, (hnew hs).2⟩⟩

end

/-- The central heap and the first `n` cached heaps exist, in the buffers given out for them. -/
structure Laid (A : AllocatorType) (params : CreationParams) (answers : CreationAnswers) (n : Nat)
    (sys : AllocatorSystem) (built : Nat → Prop) (g : Option Nat × SegmentId → Ghost) : Prop
    extends HeapsInv A sys built g where
  params_eq : sys.allocator.localHeapCreationParams = params.localHeap
  alignment_eq : sys.allocator.arenaPageAlignment = params.arenaPageAlignment
  mapped_le : ∀ c, Segments.Mapped (fun p => Built built p.1) sys.allocator.segmentAt g c →
    Distributed params answers n c
  intervals : ∀ i c, (sys.allocator.localHeaps i).ownsPointer c = true → Distributed params answers n c
  built_iff : ∀ i, built i ↔ i < n

section
variable {A : AllocatorType} {params : CreationParams} {answers : CreationAnswers} {sys : AllocatorSystem}
  {built : Nat → Prop} {g : Option Nat × SegmentId → Ghost} {n c : Nat}

theorem SoundCreation.localBytes_eq (h : SoundCreation params answers) :
    Allocator.localBytes params = heapBytes params.localHeap := calculateRequiredBufferSize_eq h.localBytes

theorem Distributed.succ (h : Distributed params answers n c) : Distributed params answers (n + 1) c := by
  rcases h with h | ⟨i, hi, h⟩
  · exact .inl h
  · exact .inr ⟨i, Nat.lt_succ_of_lt hi, h⟩

theorem distributed_self (hlo : cachedBuffer params answers n ≤ c)
    (hhi : c < cachedBuffer params answers n + localBytes params) : Distributed params answers (n + 1) c :=
  .inr ⟨n, Nat.lt_succ_self n, hlo, hhi⟩

/-- What is given out for the next cached heap is claimed by no other one. -/
theorem Laid.unclaimed (h : Laid A params answers n sys built g) (hsound : SoundCreation params answers)
    (hfresh : FreshHeaps params answers) (hb : cachedBuffer params answers n ≠ 0) :
    sys.Unclaimed (cachedBuffer params answers n) (localBytes params) := by
  rintro c hlo hhi (hlow | ⟨i, hi⟩)
  · rw [h.params_eq, ← hsound.localBytes_eq] at hlow
    have := hsound.high.cached n hb
    omega
  · have := (hfresh.cached n hb).apart c (h.intervals i c hi)
    omega

theorem Laid.add {a' : ScalableAllocator} {mem' : Memory} {i : Nat} (h : Laid A params answers n sys built g)
    (hpolicy : A.localHeap.concurrency = .threadLocal) (hsound : SoundCreation params answers)
    (hfresh : FreshHeaps params answers)
    (hc : createLocalHeap A (answers.cachedHeaps n) n sys.allocator sys.memory = some (some i, a', mem')) :
    ∃ built' g', Laid A params answers (n + 1) ⟨a', mem', sys.live⟩ built' g' ∧
      SameMembers sys.allocator a' := by
  have hlength := hsound.localBytes_eq
  have hbuffer : (answers.cachedHeaps n).request (heapBytes sys.allocator.localHeapCreationParams) =
      cachedBuffer params answers n := by rw [cachedBuffer, hlength, h.params_eq]
  have hvacant : ¬ built n := fun hn => Nat.lt_irrefl n ((h.built_iff n).mp hn)
  have hnext : cachedBuffer params answers n ≠ 0 → FreshFor sys.allocator.arenaPageAlignment
      (Segments.Mapped (fun p => Built built p.1) sys.allocator.segmentAt g) (cachedBuffer params answers n)
      (heapBytes sys.allocator.localHeapCreationParams) := by
    intro hb
    rw [h.params_eq, ← hlength, h.alignment_eq]
    exact (hfresh.cached n hb).mono h.mapped_le
  have hfree : cachedBuffer params answers n ≠ 0 → sys.Unclaimed (cachedBuffer params answers n)
      (heapBytes sys.allocator.localHeapCreationParams) := by
    intro hb
    rw [h.params_eq, ← hlength]
    exact h.unclaimed hsound hfresh hb
  obtain ⟨success, heap, new, hslot, rfl, hplaced⟩ := h.toHeapsInv.createLocalHeap hpolicy hvacant
    (h.params_eq ▸ hsound.localPower) (h.params_eq ▸ hsound.localBytes) hbuffer hnext hfree hc
  obtain rfl : success = true := by
    cases success with
    | true => rfl
    | false => cases hslot
  have hsame : SameMembers sys.allocator (sys.allocator.setHeapAt (some n) heap) := sameMembers_setHeapAt
  refine ⟨_, _, ⟨hplaced.heapsInv, hsame.params.trans h.params_eq, hsame.alignment.trans h.alignment_eq,
    ?_, fun j c hj => ?_, fun j => ?_⟩, hsame⟩
  · rintro c ⟨p, hp, hc⟩
    rcases hplaced.region_cases hp hc with ⟨hold, hregion⟩ | ⟨_, _, hin⟩
    · exact (h.mapped_le c ⟨p, hold, hregion⟩).succ
    · rw [h.params_eq, ← hlength] at hin
      exact distributed_self hin.1 hin.2
  · by_cases hjn : j = n
    · subst hjn
      obtain ⟨hb, _, hcreated⟩ := hplaced.created rfl
      rw [localHeaps_placed_self, ownsPointer_iff hcreated.bufferAddress hcreated.bufferLength
        (hplaced.fresh hb).inside, h.params_eq, ← hlength] at hj
      exact distributed_self hj.1 hj.2
    · rw [localHeaps_placed hjn] at hj
      exact (h.intervals j c hj).succ
  · simp only [withHeap, h.built_iff, true_and]
    omega

theorem Laid.createCachedHeaps {a' : ScalableAllocator} {mem' : Memory} {k : Nat}
    (h : Laid A params answers n sys built g) (hpolicy : A.localHeap.concurrency = .threadLocal)
    (hsound : SoundCreation params answers) (hfresh : FreshHeaps params answers)
    (hc : ScalableAllocator.createCachedHeaps A answers.cachedHeaps (List.range' n k) sys.allocator sys.memory =
      some (true, a', mem')) :
    ∃ built' g', Laid A params answers (n + k) ⟨a', mem', sys.live⟩ built' g' ∧
      SameMembers sys.allocator a' := by
  induction k generalizing n sys built g with
  | zero =>
    cases hc
    exact ⟨built, g, h, ⟨.refl _, rfl, rfl⟩⟩
  | succ k ih =>
    rw [List.range'_succ, ScalableAllocator.createCachedHeaps] at hc
    split at hc
    · cases hc
    · cases hc
    · rename_i i a₁ mem₁ hcreate
      obtain ⟨built₁, g₁, h₁, hsame₁⟩ := h.add hpolicy hsound hfresh hcreate
      obtain ⟨built', g', h', hsame'⟩ := ih h₁ hc
      rw [Nat.add_assoc, Nat.add_comm 1] at h'
      exact ⟨built', g', h', hsame₁.trans hsame'⟩

/-- The state after the central heap was made: no local heap exists, and no interval takes anything in. -/
theorem laid_central {a : ScalableAllocator} {mem mem' : Memory} {queueMemory : SegmentId → Bool}
    (hsound : SoundCreation params answers) (hfresh : FreshHeaps params answers)
    (hc : SimpleHeapPow2.create A.centralHeap params.central params.arenaPageAlignment
      answers.centralHeap.request queueMemory {} mem = some (true, a.centralHeap, mem'))
    (hheaps : a.localHeaps = fun _ => {}) (hstorage : a.threadLocalStorage = fun _ => none)
    (hparams : a.localHeapCreationParams = params.localHeap)
    (halignment : a.arenaPageAlignment = params.arenaPageAlignment) :
    ∃ g, Laid A params answers 0 ⟨a, mem', []⟩ (fun _ => False) g := by
  have hlength : centralBytes params = heapBytes params.central :=
    calculateRequiredBufferSize_eq hsound.centralBytes
  have hlocalLength := hsound.localBytes_eq
  have hbuffer : answers.centralHeap.request (heapBytes params.central) = centralBuffer params answers := by
    rw [centralBuffer, hlength]
  have hcentral := hfresh.central
  rw [← hbuffer, hlength] at hcentral
  obtain ⟨houtcome, halign⟩ := create_outcome hsound.centralPower hsound.centralBytes hcentral hc
  obtain ⟨hb, gc, hcreated⟩ := houtcome.created rfl
  rw [hbuffer] at hb hcreated
  have hnone : ∀ i c, (a.localHeaps i).ownsPointer c = false := by
    intro i c
    rw [hheaps]
    refine Bool.eq_false_iff.mpr fun howns => ?_
    have hin : 0 ≤ c ∧ c < 0 + 0 := (ownsPointer_iff rfl rfl (show 0 + 0 < 2^64 by decide)).mp howns
    omega
  refine ⟨fun p => gc p.2, ⟨⟨?_, ?_⟩, ?_, by simp, by simp, fun _ hf => hf.elim, fun _ hf => hf.elim,
    fun _ _ _ _ hf => hf.elim, ?_, ?_⟩, hparams, halignment, ?_, ?_, by simp⟩
  · rintro ⟨_ | i, id⟩ hp
    · exact hcreated.inv.family.system id trivial
    · exact hp.elim
  · rintro ⟨_ | i, id⟩ ⟨_ | j, id'⟩ hp hq hne c
    · exact hcreated.inv.family.apart id id' trivial trivial (fun e => hne (congrArg _ e)) c
    · exact hq.elim
    · exact hp.elim
    · exact hp.elim
  · rintro (_ | i) ho
    · exact ⟨hcreated.inv.config, (hcreated.pageSize.trans (halign rfl)).trans halignment.symm⟩
    · exact ho.elim
  · rintro ⟨_ | i, id⟩ c hp hregion
    · have hin := hcreated.used id c hregion
      have hle := hsound.high.central hb
      refine ⟨?_, fun i _ => hnone i c⟩
      dsimp only
      rw [hparams]
      omega
    · exact hp.elim
  · intro thread i hi
    dsimp only at hi
    rw [hstorage] at hi
    cases hi
  · rintro c ⟨⟨_ | i, id⟩, hp, hregion⟩
    · have hin := hcreated.used id c hregion
      rw [← hlength] at hin
      exact .inl hin
    · exact hp.elim
  · intro i c hi
    rw [hnone i c] at hi
    cases hi

end

end Metamalloc.Allocator
