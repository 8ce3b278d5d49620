import Metamalloc.Heaps.HeapLookup

/-! What a heap asks of its arena during a call and what it gives back: one request at most, new
pages in its answer only, and the release of a page that is not listed any more. -/
namespace Metamalloc.Segments
open Library.Word64 Arenas

/-- What a segment without a queue asks its arena for, when no listed page serves the request. -/
def Segment.arenaRequest (T : SegmentType) (size : Nat) (s : Segment) (mem : Memory) : Option Nat :=
  if s.maxObjectSize < size then none
  else
    match Segment.searchListed T size s mem with
    | some (none, _) =>
      (Segment.calculateQuantities T size s).map fun (desired, _) => mul64 s.logicalPageSize desired
    | _ => none

section
variable {T : SegmentType} {s : Segment} {mem : Memory} {arena arena' : ArenaAnswers} {size n m : Nat}

theorem calculateQuantities_eq_minimum (hcoefficient : s.growCoefficient.positive = false)
    (h : Segment.calculateQuantities T size s = some (n, m)) : n = m := by
  unfold Segment.calculateQuantities at h
  obtain ⟨minimum, _, he⟩ := Option.map_eq_some_iff.mp h
  rw [hcoefficient, if_neg Bool.false_ne_true, Prod.mk.injEq] at he
  exact he.1.symm.trans he.2

/-- A segment that grows by what it needs makes one request, and depends on the arena in nothing else. -/
theorem allocate_congr (hdirect : T.concurrency ≠ .threadLocal)
    (hcoefficient : s.growCoefficient.positive = false)
    (h : ∀ n, Segment.arenaRequest T size s mem = some n → arena.request n = arena'.request n) :
    Segment.allocate T arena size s mem = Segment.allocate T arena' size s mem := by
  simp only [Segment.allocate, if_neg hdirect, Segment.allocateInternal]
  unfold Segment.arenaRequest at h
  split
  · rfl
  rename_i hmax
  rw [if_neg hmax] at h
  split
  · rfl
  · rfl
  rename_i mem' hsearch
  rw [hsearch] at h
  unfold Segment.growAndAllocate
  cases hq : Segment.calculateQuantities T size s with
  | none => rfl
  | some q =>
    obtain ⟨n, m⟩ := q
    -- The quantities do not depend on the memory, and there is no second request.
    obtain rfl := calculateQuantities_eq_minimum hcoefficient hq
    rw [hq] at h
    have hrequest := h _ rfl
    have hretry : ∀ arena : ArenaAnswers, Segment.requestBuffer arena s n n =
        arena.request (mul64 s.logicalPageSize n) := by
      intro arena
      rw [Segment.requestBuffer, if_neg]
      exact fun hlt => Nat.lt_irrefl n hlt.2
    dsimp only
    rw [hretry, hretry, hrequest]

end
end Metamalloc.Segments

namespace Metamalloc.Arenas
open Library.Tiling Segments

namespace ArenaSystem
variable (policy : VirtualMemoryPolicy)

/-- The arena as a segment sees it during a call that makes one request. -/
def answers (systemAnswers : SystemAnswers) (sys : ArenaSystem) : ArenaAnswers where
  request n := ((sys.arena.allocate (allocateFromSystem policy systemAnswers) n).map fun r => r.1).getD 0
  retry _ := 0

def afterRequest (systemAnswers : SystemAnswers) (sys : ArenaSystem) : Option Nat → Option ArenaSystem
  | none => some sys
  | some n => (sys.perform policy (.allocate n systemAnswers)).map fun r => r.2.2

/-- `release_to_system` on a part of what was handed out; there is no result for other memory. -/
def releaseToSystem (part : Block) (sys : ArenaSystem) : Option ArenaSystem :=
  (sys.granted.find? fun range =>
    range.start ≤ part.start && part.start + part.size ≤ range.start + range.size).bind fun range =>
      (sys.perform policy (.release range part)).map fun r => r.2.2

/-- The calls of `release_to_system` in a log, the latest one first. -/
def releaseLogged : List (Nat × Nat) → ArenaSystem → Option ArenaSystem
  | [], sys => some sys
  | (address, size) :: earlier, sys =>
    (releaseLogged earlier sys).bind (releaseToSystem policy ⟨address, size⟩)

end ArenaSystem

def Backed (granted : List Block) (page : Block) : Prop :=
  ∃ range ∈ granted, range.start ≤ page.start ∧ page.start + page.size ≤ range.start + range.size

section
variable {policy : VirtualMemoryPolicy} {sys : ArenaSystem} {granted granted' : List Block}
  {page part range : Block} {vm alignment : Nat}

theorem Backed.mono (h : Backed granted page) (hsub : ∀ b ∈ granted, b ∈ granted') : Backed granted' page := by
  obtain ⟨range, hrange, hin⟩ := h
  exact ⟨range, hsub range hrange, hin⟩

theorem Backed.remaining (h : Backed granted page) (hpage : 0 < page.size) (hpart : 0 < part.size)
    (hapart : ∀ c, part.Holds c → ¬ page.Holds c) :
    Backed (Arenas.remaining range part ++ granted.erase range) page := by
  obtain ⟨own, hown, hlo, hhi⟩ := h
  by_cases hsame : own = range
  · subst hsame
    -- The higher of the two starts would lie on both.
    have hmax := hapart (max part.start page.start)
    unfold Block.Holds at hmax
    by_cases hleft : page.start + page.size ≤ part.start
    · refine ⟨⟨own.start, part.start - own.start⟩, by simp [Arenas.remaining], hlo, ?_⟩
      dsimp only
      omega
    · refine ⟨⟨part.start + part.size, own.start + own.size - (part.start + part.size)⟩,
        by simp [Arenas.remaining], ?_, ?_⟩ <;> dsimp only <;> omega
  · exact ⟨own, List.mem_append_right _ ((List.mem_erase_of_ne hsame).mpr hown), hlo, hhi⟩

theorem releaseToSystem_of_backed (policy : VirtualMemoryPolicy) (alignment : Nat)
    (h : Backed sys.granted part) : ∃ range, sys.Allowed alignment (.release range part) ∧
    sys.releaseToSystem policy part = some { sys with
      mapped := Library.AddressSpace.SystemCall.perform sys.mapped (.unmap part)
      granted := remaining range part ++ sys.granted.erase range } := by
  obtain ⟨own, hown, hlo, hhi⟩ := h
  have hfound : (sys.granted.find? fun range =>
      range.start ≤ part.start && part.start + part.size ≤ range.start + range.size).isSome := by
    rw [List.find?_isSome]
    exact ⟨own, hown, by simp [hlo, hhi]⟩
  obtain ⟨range, hrange⟩ := Option.isSome_iff_exists.mp hfound
  have hin := List.find?_some hrange
  simp only [Bool.and_eq_true, decide_eq_true_eq] at hin
  refine ⟨range, ⟨List.mem_of_find?_eq_some hrange, hin⟩, ?_⟩
  rw [ArenaSystem.releaseToSystem, hrange]
  rfl

theorem granted_of_perform {action : ArenaAction} {ret : Nat} {calls : List Library.AddressSpace.SystemCall}
    {sys' : ArenaSystem} (hp : sys.perform policy action = some (ret, calls, sys')) :
    (∃ range part, action = .release range part ∧
        sys'.granted = remaining range part ++ sys.granted.erase range) ∨
      ∀ b ∈ sys.granted, b ∈ sys'.granted := by
  cases action with
  | allocate size answers =>
    simp only [ArenaSystem.perform, Option.map_eq_some_iff, Prod.mk.injEq, Prod.exists] at hp
    obtain ⟨_, _, _, _, _, _, rfl⟩ := hp
    refine .inr fun b hb => ?_
    split
    · exact hb
    · exact List.mem_cons_of_mem _ hb
  | release range part =>
    simp only [ArenaSystem.perform, Option.some.injEq, Prod.mk.injEq] at hp
    obtain ⟨_, _, rfl⟩ := hp
    exact .inl ⟨range, part, rfl, rfl⟩
  | destroy =>
    simp only [ArenaSystem.perform, Option.map_eq_some_iff, Prod.mk.injEq, Prod.exists] at hp
    obtain ⟨_, _, _, _, _, rfl⟩ := hp
    exact .inr fun _ hb => hb
  | others mapped =>
    simp only [ArenaSystem.perform, Option.some.injEq, Prod.mk.injEq] at hp
    obtain ⟨_, _, rfl⟩ := hp
    exact .inr fun _ hb => hb

theorem answers_request {systemAnswers : SystemAnswers} {n ret : Nat}
    {calls : List Library.AddressSpace.SystemCall} {sys' : ArenaSystem}
    (hp : sys.perform policy (.allocate n systemAnswers) = some (ret, calls, sys')) :
    (sys.answers policy systemAnswers).request n = ret := by
  simp only [ArenaSystem.perform, Option.map_eq_some_iff, Prod.mk.injEq, Prod.exists] at hp
  obtain ⟨ret, arena, calls, halloc, rfl, rfl, rfl⟩ := hp
  simp only [ArenaSystem.answers, halloc, Option.map_some, Option.getD_some]

theorem granted_of_allocate {systemAnswers : SystemAnswers} {n ret : Nat}
    {calls : List Library.AddressSpace.SystemCall} {sys' : ArenaSystem}
    (hp : sys.perform policy (.allocate n systemAnswers) = some (ret, calls, sys')) (hret : ret ≠ 0) :
    sys'.granted = ⟨ret, n⟩ :: sys.granted := by
  simp only [ArenaSystem.perform, Option.map_eq_some_iff, Prod.mk.injEq, Prod.exists] at hp
  obtain ⟨_, _, _, _, rfl, rfl, rfl⟩ := hp
  rw [if_neg hret]

end
end Metamalloc.Arenas

namespace Metamalloc.Heaps
open Library.Word64 Library.ByteMemory Library.LinkedList Pages Segments

def HeapSystem.arenaRequest (H : HeapType) (size : Nat) (sys : HeapSystem) : Option Nat :=
  let id := (SimpleHeapPow2.requestTarget size).1
  Segment.arenaRequest (H.segmentType id) (SimpleHeapPow2.requestTarget size).2 (sys.heap.segment id) sys.memory

def HeapSystem.releasedUntil (sys sys' : HeapSystem) : List (Nat × Nat) :=
  sys'.memory.released.take (sys'.memory.released.length - sys.memory.released.length)

section
variable {H : HeapType} {sys : HeapSystem} {g : SegmentId → Ghost} {x : Grant} {id : SegmentId}
  {size adjusted n b : Nat} {arena arena' : ArenaAnswers} {policy : VirtualMemoryPolicy} {vm : Nat}

theorem HeapSystemInv.eq_of_lists {l : List Nat} (h : HeapSystemInv H sys g) (hl : sys.Lists id l) :
    l = (g id).pages := (h.inv.system id).eq_of_lists hl

theorem arenaRequest_eq (h : HeapSystemInv H sys g) (hrequest : sys.arenaRequest H size = some n) :
    n = (sys.heap.segment (SimpleHeapPow2.requestTarget size).1).logicalPageSize := by
  obtain ⟨_, _, _, hclass⟩ := requestTarget_spec size
  simp only [HeapSystem.arenaRequest] at hrequest
  generalize (SimpleHeapPow2.requestTarget size).1 = id at hclass hrequest ⊢
  generalize (SimpleHeapPow2.requestTarget size).2 = adjusted at hclass hrequest
  have hword := (h.segmentInv id).geometry.word
  unfold Segment.arenaRequest at hrequest
  split at hrequest
  · cases hrequest
  split at hrequest
  · obtain ⟨⟨desired, minimum⟩, hq, rfl⟩ := Option.map_eq_some_iff.mp hrequest
    obtain ⟨rfl, rfl⟩ := calculateQuantities_eq_one (h.growCoefficient id) (h.fits_quantities hclass) hq
    dsimp only
    rw [mul64_of_lt (by omega), Nat.mul_one]
  · cases hrequest

/-- Only the answer to the one request matters. -/
theorem allocate_answers (h : HeapSystemInv H sys g) (hdirect : H.concurrency ≠ .threadLocal)
    (hsame : ∀ n, sys.arenaRequest H size = some n → arena.request n = arena'.request n) :
    sys.perform H (.allocate size arena) = sys.perform H (.allocate size arena') := by
  simp only [HeapSystem.arenaRequest] at hsame
  simp only [HeapSystem.perform, SimpleHeapPow2.allocate]
  generalize (SimpleHeapPow2.requestTarget size).1 = id at hsame ⊢
  generalize (SimpleHeapPow2.requestTarget size).2 = adjusted at hsame ⊢
  have hpolicy : (H.segmentType id).concurrency ≠ .threadLocal := by cases id <;> exact hdirect
  rw [allocate_congr hpolicy (h.growCoefficient id) hsame]

theorem config_setSegment {heap : SimpleHeapPow2} {s : Segment}
    (hs : s.toSegmentConfig = (heap.segment id).toSegmentConfig) (id' : SegmentId) :
    ((heap.setSegment id s).segment id').toSegmentConfig = (heap.segment id').toSegmentConfig := by
  by_cases hid : id' = id
  · subst hid
    rw [SimpleHeapPow2.segment_setSegment_self]
    exact hs
  · rw [SimpleHeapPow2.segment_setSegment_of_ne hid]

/-- An allocation releases nothing, and lists new pages in a buffer of the arena only. -/
theorem allocate_pages (size : Nat) (h : HeapSystemInv H sys g) (hdirect : H.concurrency ≠ .threadLocal)
    (harena : sys.FreshAnswers arena) :
    ∃ sys', sys.perform H (.allocate size arena) = some sys' ∧
      sys'.memory.released = sys.memory.released ∧
      (∀ id, (sys'.heap.segment id).toSegmentConfig = (sys.heap.segment id).toSegmentConfig) ∧
      sys'.heap.smallObjectLogicalPageSize = sys.heap.smallObjectLogicalPageSize ∧
      ∀ id l, sys'.Lists id l → ∀ a ∈ l, a ∈ (g id).pages ∨
        a ≠ 0 ∧ arena.request (sys.heap.segment id).logicalPageSize = a := by
  obtain ⟨_, _, h0, hclass⟩ := requestTarget_spec size
  simp only [HeapSystem.perform, SimpleHeapPow2.allocate]
  generalize (SimpleHeapPow2.requestTarget size).1 = id at h0 hclass ⊢
  generalize (SimpleHeapPow2.requestTarget size).2 = adjusted at h0 hclass ⊢
  have hpolicy : (H.segmentType id).concurrency ≠ .threadLocal := by cases id <;> exact hdirect
  obtain ⟨ret, s', mem', g', he, hfamily, hconfig, ho, -⟩ := h.inv.family.allocate_direct trivial hpolicy
    (fun _ => h0) (h.arenaServes harena hclass) (fun c hc => h.mapped hc) h.inv.granularity
    (h.inv.aligned_dvd id)
  have hone : ∀ n b, Granted (H.segmentType id) arena adjusted (sys.heap.segment id) n b →
      n = 1 ∧ b ≠ 0 ∧ arena.request (sys.heap.segment id).logicalPageSize = b := by
    rintro n b ⟨_, m, hq, _, hb, hne⟩
    obtain ⟨rfl, rfl⟩ := calculateQuantities_eq_one (h.growCoefficient id) (h.fits_quantities hclass) hq
    have hword := (h.segmentInv id).geometry.word
    rw [mul64_of_lt (by omega), Nat.mul_one] at hb
    exact ⟨rfl, hne, hb⟩
  have haligned : GranularityAligned arena := by
    intro n
    by_cases hn : arena.request n = 0
    · rw [hn]
    · exact Nat.mod_eq_zero_of_dvd (h.inv.granularity.trans (harena n hn).aligned)
  have hpages : ∀ a ∈ g'.pages, a ∈ (g id).pages ∨
      a ≠ 0 ∧ arena.request (sys.heap.segment id).logicalPageSize = a := by
    intro a ha
    obtain ⟨new, ht, hnew⟩ := ho.touches (fun n b hb => aligned_of_granted (fun _ => haligned) hb)
      (h.segmentInv id)
    rcases List.mem_append.mp (ht.pages a ha) with ha | ha
    · exact .inl ha
    · rcases hnew with rfl | ⟨n, b, hb, rfl⟩
      · cases ha
      · obtain ⟨rfl, hne, hrequest⟩ := hone n b hb
        obtain rfl : a = b := by simpa [newPages] using ha
        exact .inr ⟨hne, hrequest⟩
  have hreleased := (ho.logs (fun _ => haligned) (h.segmentInv id)).1
  rw [he]
  refine ⟨_, rfl, hreleased, config_setSegment hconfig,
    SimpleHeapPow2.smallObjectLogicalPageSize_setSegment, fun id' l hl a ha => ?_⟩
  · have hl' : Path mem'.getNext ((sys.heap.setSegment id s').segment id').head l 0 ∧ 0 ∉ l := hl
    rw [segment_setSegment] at hl'
    rw [(hfamily.system id' trivial).eq_of_lists hl'] at ha
    by_cases hid : id' = id
    · subst hid
      rw [Function.update_self] at ha
      exact hpages a ha
    · rw [Function.update_of_ne hid] at ha
      exact .inl ha

/-- A deallocation releases the page that is not listed any more, if there is one. -/
theorem deallocate_pages (h : HeapSystemInv H sys g) (hdirect : H.concurrency ≠ .threadLocal)
    (hx : x ∈ sys.live) :
    ∃ sys', sys.perform H (.deallocate x) = some sys' ∧
      (∀ id, (sys'.heap.segment id).toSegmentConfig = (sys.heap.segment id).toSegmentConfig) ∧
      sys'.heap.smallObjectLogicalPageSize = sys.heap.smallObjectLogicalPageSize ∧
      ∃ pages, (∀ id l, sys'.Lists id l → l = Function.update (fun id => (g id).pages) x.segment pages id) ∧
        (sys'.memory.released = sys.memory.released ∧ pages = (g x.segment).pages ∨
          ∃ a ∈ (g x.segment).pages, pages = (g x.segment).pages.erase a ∧
            sys'.memory.released =
              (a, (sys.heap.segment x.segment).logicalPageSize) :: sys.memory.released) := by
  have hxa := (h.taken x hx).1
  have hsegment := h.segmentInv x.segment
  have ha := hsegment.mem_of_owned hxa
  have hfrees := hsegment.frees_self hxa
  have hlo : x.page + (H.segmentType x.segment).page.objectSize ≤ x.ptr := hfrees.behind
  have hpolicy : (H.segmentType x.segment).concurrency ≠ .threadLocal := by
    cases x.segment <;> exact hdirect
  obtain ⟨s', mem', g', rest, he, _, hinv, _, _, hf⟩ :=
    Segments.deallocate_direct hpolicy (h.inv.system x.segment) (mem_liveAt hx) hxa hfrees
  have hfamily := h.inv.family.update_listed trivial hinv hf.touches
  have htarget : SimpleHeapPow2.pointerTarget H x.ptr sys.heap sys.memory = some x.segment :=
    h.inv.pointerTarget_eq hdirect ha (by omega) hfrees.onPage
  have hcall := deallocate_of_target htarget he
  simp only [HeapSystem.perform, hcall, Option.map_some, Option.some.injEq, exists_eq_left']
  refine ⟨config_setSegment hf.config, SimpleHeapPow2.smallObjectLogicalPageSize_setSegment, g'.pages,
    fun id l hl => ?_, ?_⟩
  · have hl' : Path mem'.getNext ((sys.heap.setSegment x.segment s').segment id).head l 0 ∧ 0 ∉ l := hl
    rw [segment_setSegment] at hl'
    rw [(hfamily.system id trivial).eq_of_lists hl']
    by_cases hid : id = x.segment
    · subst hid
      rw [Function.update_self, Function.update_self]
    · rw [Function.update_of_ne hid, Function.update_of_ne hid]
  · rcases hf.outcome with ⟨_, hpages, hlog⟩ | ⟨_, hpages, hlog⟩
    · exact .inr ⟨x.page, ha, hpages, hlog⟩
    · exact .inl ⟨hlog, hpages⟩

end

end Metamalloc.Heaps
