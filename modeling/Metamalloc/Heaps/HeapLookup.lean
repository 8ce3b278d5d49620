import Mathlib.Data.Nat.Factorization.Basic
import Metamalloc.Arenas.ArenaRuns
import Metamalloc.Heaps.HeapRuns
import Metamalloc.Segments.HonestArena

/-! The header of a small object, found by masking its address: along the runs of a heap of
any policy, for the page sizes that `create` accepts. -/
namespace Metamalloc.Heaps
open Library.Word64 Library.ByteMemory Library.LinkedList Pages Segments

inductive HeapCall where
  | call (action : HeapAction)
  | recycle

namespace HeapSystem
variable (H : HeapType)

def performCall (sys : HeapSystem) : HeapCall → Option HeapSystem
  | .call action => sys.perform H action
  | .recycle => (SimpleHeapPow2.recycle sys.heap sys.memory).map fun (heap, mem) =>
      { sys with heap := heap, memory := mem }

/-- Both answers of the arena are aligned and fresh for the bytes asked for, or refusals. -/
def HonestAnswers (sys : HeapSystem) (arena : ArenaAnswers) : Prop :=
  sys.FreshAnswers arena ∧ ∀ n, arena.retry n ≠ 0 →
    FreshFor sys.heap.smallObjectLogicalPageSize sys.Mapped (arena.retry n) n

def MayCall (sys : HeapSystem) : HeapCall → Prop
  | .call (.allocate _ arena) => sys.HonestAnswers arena
  | .call action => sys.Allowed action
  | .recycle => True

/-- A growth is granted in full or not at all, and recycling meets no page that is marked as
unused and in use. -/
def KeepsPages (sys : HeapSystem) : HeapCall → Prop
  | .call (.allocate size arena) => H.concurrency ≠ .threadLocal →
      GrantedInFull (H.segmentType (SimpleHeapPow2.requestTarget size).1)
        (sys.heap.segment (SimpleHeapPow2.requestTarget size).1) arena (SimpleHeapPow2.requestTarget size).2
  | .call _ => True
  | .recycle => ∀ id l, sys.Lists id l → ∀ a ∈ l,
      (sys.memory.pages a).canBeRecycled = true → (sys.memory.pages a).usedSize = 0

end HeapSystem

/-- The states of runs that begin with a successful creation with these parameters. -/
inductive HeapRun (H : HeapType) (params : HeapCreationParams)
    (condition : HeapSystem → HeapCall → Prop) : HeapSystem → Prop
  | create {pageAlignment : Nat} {request : Nat → Nat} {queueMemory : SegmentId → Bool}
      {heap : SimpleHeapPow2} {mem mem' : Memory} (hword : params.smallObjectLogicalPageSize < 2^64)
      (hfresh : request (SimpleHeapPow2.calculateRequiredBufferSize params) ≠ 0 →
        FreshFor pageAlignment (fun _ => False) (request (SimpleHeapPow2.calculateRequiredBufferSize params))
          (SimpleHeapPow2.calculateRequiredBufferSize params))
      (h : SimpleHeapPow2.create H params pageAlignment request queueMemory {} mem =
        some (true, heap, mem')) :
      HeapRun H params condition ⟨heap, mem', []⟩
  | step {sys sys' : HeapSystem} {call : HeapCall} (h : HeapRun H params condition sys)
      (ha : sys.MayCall call) (hc : condition sys call) (hp : sys.performCall H call = some sys') :
      HeapRun H params condition sys'

theorem odd_testBit_zero {q k : Nat} (hq : Odd q) (hk : 0 < k) (hle : q ≤ 2^k) :
    (2^k - q).testBit 0 = true := by
  have heven : 2^k % 2 = 0 := by
    obtain ⟨r, rfl⟩ := Nat.exists_eq_add_of_lt hk
    rw [Nat.zero_add, Nat.pow_succ]
    omega
  obtain ⟨r, rfl⟩ := hq
  rw [Nat.testBit_zero]
  simp only [decide_eq_true_eq]
  omega

/-- The lowest bit of a page size that is no power of two survives the mask. -/
theorem lowest_bit_masked {t q : Nat} (hq : Odd q) (hlt : 2^t * q < 2^64) :
    (Segment.getLogicalPageFromAddress (2^t) (2^t * q)).testBit t = true := by
  have hpos : 0 < q := hq.pos
  have ht : t < 64 := by
    refine (Nat.pow_lt_pow_iff_right (by decide : 1 < 2)).mp (Nat.lt_of_le_of_lt ?_ hlt)
    exact Nat.le_mul_of_pos_right _ hpos
  have hsplit : 2^64 = 2^(64-t) * 2^t := by rw [← pow_add, Nat.sub_add_cancel ht.le]
  have hle : q ≤ 2^(64-t) := by
    rw [hsplit, Nat.mul_comm] at hlt
    exact (Nat.lt_of_mul_lt_mul_right hlt).le
  have hmask : mask64 (2^t * q) = (2^(64-t) - q) <<< t := by
    rw [mask64, Nat.shiftLeft_eq, Nat.sub_mul, ← hsplit, Nat.mul_comm q]
  rw [Segment.getLogicalPageFromAddress, Nat.testBit_and, hmask, Nat.testBit_shiftLeft,
    Nat.testBit_two_pow_self, Nat.sub_self, odd_testBit_zero hq (by omega) hle]
  simp

/-- The mask rounds every address down to a multiple of the page size exactly for powers of two. -/
theorem getLogicalPageFromAddress_eq_iff {pageSize : Nat} (h0 : pageSize ≠ 0) (hlt : pageSize < 2^64) :
    (∀ p < 2^64, Segment.getLogicalPageFromAddress p pageSize = p - p % pageSize) ↔
      ∃ k, pageSize = 2^k := by
  constructor
  · intro h
    obtain ⟨t, q, hq, rfl⟩ := Nat.exists_eq_two_pow_mul_odd h0
    refine ⟨t, ?_⟩
    by_contra hne
    have hq1 : 1 < q := by
      have hpos := hq.pos
      have : q ≠ 1 := fun h1 => hne (by rw [h1, Nat.mul_one])
      omega
    have hsmall : 2^t < 2^t * q := (Nat.lt_mul_iff_one_lt_right (Nat.two_pow_pos t)).mpr hq1
    have hbit := lowest_bit_masked hq hlt
    rw [h _ (hsmall.trans hlt), Nat.mod_eq_of_lt hsmall, Nat.sub_self, Nat.zero_testBit] at hbit
    cases hbit
  · rintro ⟨k, rfl⟩ p hp
    have hk : k ≤ 64 := ((Nat.pow_lt_pow_iff_right (by decide)).mp hlt).le
    have hdiv := Nat.div_add_mod p (2^k)
    rw [Segment.getLogicalPageFromAddress, and_mask64 hk hp, Nat.mul_comm]
    omega

/-- An arena with fresh answers that grants in full serves each segment. -/
theorem arenaServes_of_full {T : SegmentType} {s : Segment} {arena : ArenaAnswers} {size alignment : Nat}
    {avoid : Nat → Prop}
    (hfresh : ∀ n, arena.request n ≠ 0 → FreshFor alignment avoid (arena.request n) n)
    (hfull : GrantedInFull T s arena size) : ArenaServes T s arena size alignment avoid := by
  refine ⟨fun n m hq hb => ?_, hfull.no_retry⟩
  have hlength : mul64 s.logicalPageSize n = n * s.logicalPageSize := by
    rw [mul64_of_lt (hfull.no_wrap n m hq hb), Nat.mul_comm]
  have hbuffer := hfresh _ hb
  exact ⟨hbuffer.ne_zero, hbuffer.aligned, hlength ▸ hbuffer.inside, hlength ▸ hbuffer.apart⟩

/-- A thread-local heap takes a small pointer for a big one once its big page is gone and the pointer is low
enough; such a pointer is dropped, and its page keeps it for good. -/
structure LookupInv (H : HeapType) (sys : HeapSystem) (lost : List Grant) (g : SegmentId → Ghost) : Prop where
  inv : HeapInv H sys.heap sys.memory (liveOf (sys.live ++ lost)) g
  fits : ∀ x ∈ sys.live, x.size ≤ x.allocation.size
  bigPage : H.concurrency = .threadLocal →
    sys.heap.bigObjectBin.bufferLength = sys.heap.bigObjectBin.logicalPageSize ∧ (g .big).pages.length ≤ 1

section
variable {H : HeapType} {params : HeapCreationParams} {sys sys' : HeapSystem} {lost : List Grant}
  {g : SegmentId → Ghost} {id : SegmentId} {x : Grant} {size : Nat} {arena : ArenaAnswers} {call : HeapCall}
  {condition : HeapSystem → HeapCall → Prop}

namespace LookupInv

theorem lists (h : LookupInv H sys lost g) (id : SegmentId) : sys.Lists id (g id).pages :=
  (h.inv.system id).lists

theorem mapped (h : LookupInv H sys lost g) {c : Nat}
    (hc : Segments.Mapped (fun _ => True) sys.heap.segment g c) : sys.Mapped c := by
  obtain ⟨id, _, hc⟩ := hc
  exact ⟨id, _, h.lists id, hc⟩

theorem mem_liveOf (hx : x ∈ sys.live) : x.allocation ∈ liveOf (sys.live ++ lost) x.segment :=
  mem_liveAt (List.mem_append_left _ hx)

theorem replaced {s' : Segment} {mem' : Memory} {g' : Ghost} {live' lost' : List Grant}
    (h : LookupInv H sys lost g) (hconfig : s'.toSegmentConfig = (sys.heap.segment id).toSegmentConfig)
    (hfamily : FamilyInv H.segmentType H.laws (fun _ => True) (Function.update sys.heap.segment id s') mem'
      (liveOf (live' ++ lost')) (Function.update g id g'))
    (hfits : ∀ x ∈ live', x.size ≤ x.allocation.size)
    (hpages : H.concurrency = .threadLocal → ∀ a ∈ g'.pages, a ∈ (g id).pages) :
    LookupInv H ⟨sys.heap.setSegment id s', mem', live'⟩ lost' (Function.update g id g') := by
  rw [← segment_setSegment] at hfamily
  have hinv : HeapInv H (sys.heap.setSegment id s') mem' (liveOf (live' ++ lost')) (Function.update g id g') :=
    ⟨h.inv.config.setSegment hconfig, hfamily⟩
  refine ⟨hinv, hfits, fun hlocal => ?_⟩
  obtain ⟨hlength, hone⟩ := h.bigPage hlocal
  cases id with
  | small i => exact ⟨hlength, hone⟩
  | big =>
    have hnodup : g'.pages.Nodup := by
      have hlisted := (hinv.segmentInv .big).listed
      rw [Function.update_self] at hlisted
      exact hlisted.ring.nodup_list
    refine ⟨?_, ?_⟩
    · have hbuffer := congrArg SegmentConfig.bufferLength hconfig
      have hsize := congrArg SegmentConfig.logicalPageSize hconfig
      exact hbuffer.trans (hlength.trans hsize.symm)
    · rw [Function.update_self]
      exact (List.subperm_of_subset hnodup (hpages hlocal)).length_le.trans hone

theorem granted {ret adjusted : Nat} {s' : Segment} {mem' : Memory} {g' : Ghost} (page : Nat)
    (h : LookupInv H sys lost g) (hconfig : s'.toSegmentConfig = (sys.heap.segment id).toSegmentConfig)
    (hsize : size ≤ grantedSize id size) (hadjusted : grantedSize id adjusted = grantedSize id size)
    (hfamily : FamilyInv H.segmentType H.laws (fun _ => True) (Function.update sys.heap.segment id s') mem'
      (Function.update (liveOf (sys.live ++ lost)) id (System.grant (H.segmentType id) (H.laws id)
        (sys.heap.segment id).sizeClass adjusted ret (liveOf (sys.live ++ lost) id))) (Function.update g id g'))
    (hpages : H.concurrency = .threadLocal → ∀ a ∈ g'.pages, a ∈ (g id).pages) :
    LookupInv H ⟨sys.heap.setSegment id s', mem',
      if ret = 0 then sys.live else ⟨ret, size, id, page⟩ :: sys.live⟩ lost (Function.update g id g') := by
  have happend : (if ret = 0 then sys.live ++ lost else ⟨ret, size, id, page⟩ :: (sys.live ++ lost)) =
      (if ret = 0 then sys.live else ⟨ret, size, id, page⟩ :: sys.live) ++ lost := by
    split <;> rfl
  rw [liveOf_granted h.inv.config page hadjusted, happend] at hfamily
  refine h.replaced hconfig hfamily ?_ hpages
  split
  · exact h.fits
  · exact List.forall_mem_cons.mpr ⟨hsize, h.fits⟩

theorem allocate_ok (h : LookupInv H sys lost g) (ha : sys.HonestAnswers arena)
    (hc : sys.KeepsPages H (.call (.allocate size arena))) :
    ∃ r g', SimpleHeapPow2.allocate H arena size sys.heap sys.memory = some r ∧
      LookupInv H (sys.afterAllocate size r) lost g' := by
  obtain ⟨hsize, hadjusted, h0, _⟩ := requestTarget_spec size
  simp only [HeapSystem.KeepsPages] at hc
  simp only [SimpleHeapPow2.allocate, HeapSystem.afterAllocate]
  generalize (SimpleHeapPow2.requestTarget size).1 = id at hsize hadjusted hc ⊢
  generalize (SimpleHeapPow2.requestTarget size).2 = adjusted at hadjusted h0 hc ⊢
  have hpolicy : (H.segmentType id).concurrency = H.concurrency := by cases id <;> rfl
  by_cases hlocal : H.concurrency = .threadLocal
  · obtain ⟨ret, s', mem', g', he, hfamily, ht, -⟩ : ∃ ret s' mem' g',
        Segment.allocate (H.segmentType id) arena adjusted (sys.heap.segment id) sys.memory =
          some (ret, s', mem') ∧ _ ∧ Touches _ _ _ _ _ _ _ ∧ _ :=
      h.inv.family.allocate_local trivial (hpolicy.trans hlocal) fun _ => h0
    refine ⟨(ret, sys.heap.setSegment id s', mem'), Function.update g id g', by rw [he, Option.map_some], ?_⟩
    refine h.granted _ ht.config hsize hadjusted hfamily fun _ a ha => ?_
    simpa using ht.pages a ha
  · obtain ⟨ret, s', mem', g', he, hfamily, hconfig, _⟩ := h.inv.family.allocate_direct trivial
      (fun heq => hlocal (hpolicy.symm.trans heq)) (fun _ => h0) (arenaServes_of_full ha.1 (hc hlocal))
      (fun c hc => h.mapped hc) h.inv.granularity (h.inv.aligned_dvd id)
    refine ⟨(ret, sys.heap.setSegment id s', mem'), Function.update g id g', by rw [he, Option.map_some], ?_⟩
    exact h.granted _ hconfig hsize hadjusted hfamily fun heq => absurd heq hlocal

theorem liveOf_erase (hx : x ∈ sys.live) (id : SegmentId) :
    (Function.update (liveOf (sys.live ++ lost)) x.segment
      ((liveOf (sys.live ++ lost) x.segment).erase x.allocation) id).Perm
      (liveOf (sys.live.erase x ++ lost) id) := by
  rw [← List.erase_append_left lost hx]
  exact liveAt_erase (List.mem_append_left _ hx) id

theorem deallocate_ok (h : LookupInv H sys lost g) (hx : x ∈ sys.live) :
    ∃ heap' mem' lost' g', SimpleHeapPow2.deallocate H x.ptr sys.heap sys.memory = some (heap', mem') ∧
      LookupInv H ⟨heap', mem', sys.live.erase x⟩ lost' g' := by
  obtain ⟨a, ha, hxa, hlo, hhi⟩ := h.inv.owner (mem_liveOf hx)
  have hfits : ∀ y ∈ sys.live.erase x, y.size ≤ y.allocation.size := fun y hy =>
    h.fits y (List.mem_of_mem_erase hy)
  rcases h.inv.pointerTarget_cases h.bigPage ha hlo hhi with htarget | ⟨hhead, _, htarget⟩
  · by_cases hlocal : H.concurrency = .threadLocal
    · have hpolicy : (H.segmentType x.segment).concurrency = .threadLocal := by
        cases x.segment <;> exact hlocal
      obtain ⟨g', he, hfamily, hpages⟩ := h.inv.family.deallocate_local trivial hpolicy (mem_liveOf hx)
      refine ⟨_, _, lost, Function.update g x.segment g', deallocate_of_target htarget he, ?_⟩
      exact h.replaced rfl (hfamily.perm (liveOf_erase hx)) hfits fun _ b hb => hpages ▸ hb
    · have hpolicy : (H.segmentType x.segment).concurrency ≠ .threadLocal := by
        cases x.segment <;> exact hlocal
      obtain ⟨s', mem', g', _, he, _, hfamily, ht, _⟩ := h.inv.family.deallocate_direct trivial hpolicy
        (mem_liveOf hx) hxa ((h.inv.segmentInv x.segment).frees_self hxa)
      refine ⟨_, _, lost, Function.update g x.segment g', deallocate_of_target htarget he, ?_⟩
      exact h.replaced ht.config (hfamily.perm (liveOf_erase hx)) hfits fun heq => absurd heq hlocal
  · -- A segment without pages takes nothing back.
    have hdropped : Segment.deallocate (H.segmentType .big) x.ptr (sys.heap.segment .big) sys.memory =
        some (sys.heap.segment .big, sys.memory) := if_pos hhead
    have hperm : (sys.live ++ lost).Perm (sys.live.erase x ++ x :: lost) :=
      ((List.perm_cons_erase hx).append_right lost).trans List.perm_middle.symm
    refine ⟨_, _, x :: lost, g, deallocate_of_target htarget hdropped, ⟨h.inv.config, ?_⟩, hfits, h.bigPage⟩
    exact h.inv.family.perm (liveAt_perm hperm)

theorem store_ok {address : Nat} (h : LookupInv H sys lost g) (hx : x ∈ sys.live) (hlo : x.ptr ≤ address)
    (hhi : address < x.ptr + x.size) (value : UInt8) :
    LookupInv H { sys with memory.bytes := Function.update sys.memory.bytes address value } lost g := by
  have hb : x.allocation.Holds address := ⟨hlo, Nat.lt_of_lt_of_le hhi (Nat.add_le_add_left (h.fits x hx) _)⟩
  exact ⟨⟨h.inv.config, h.inv.family.store trivial (mem_liveOf hx) hb value⟩, h.fits, h.bigPage⟩

theorem recycleSegments_ok {ids : List SegmentId} {heap' : SimpleHeapPow2} {mem' : Memory}
    (h : LookupInv H sys lost g) (hm : ∀ id, MarkedEmpty sys.memory (g id).pages (g id).owned)
    (he : SimpleHeapPow2.recycleSegments ids sys.heap sys.memory = some (heap', mem')) :
    ∃ g', LookupInv H ⟨heap', mem', sys.live⟩ lost g' := by
  induction ids generalizing sys g with
  | nil =>
    cases he
    exact ⟨g, h⟩
  | cons id rest ih =>
    rw [SimpleHeapPow2.recycleSegments] at he
    cases hr : Segment.recycleFreeLogicalPages (sys.heap.segment id) sys.memory with
    | none =>
      rw [hr] at he
      cases he
    | some r =>
      obtain ⟨s₁, mem₁⟩ := r
      rw [hr] at he
      obtain ⟨released, l', hrecycled⟩ := recycleFreeLogicalPages_spec (h.inv.segmentInv id) (hm id) hr
      have hsub : ∀ a ∈ l', a ∈ (g id).pages := fun a ha =>
        hrecycled.pages.symm.subset (List.mem_append_left _ ha)
      have h₁ := h.replaced hrecycled.config (h.inv.family.recycled trivial hrecycled) h.fits fun _ => hsub
      have hm₁ : ∀ id', MarkedEmpty mem₁ (Function.update g id { g id with pages := l' } id').pages
          (Function.update g id { g id with pages := l' } id').owned := by
        intro id' a ha hflag
        rw [hrecycled.flags a] at hflag
        by_cases hid : id' = id
        · subst hid
          rw [Function.update_self] at ha ⊢
          exact hm id' a (hsub a ha) hflag
        · rw [Function.update_of_ne hid] at ha ⊢
          exact hm id' a ha hflag
      exact @ih ⟨sys.heap.setSegment id s₁, mem₁, sys.live⟩ _ h₁ hm₁ he

theorem perform_ok (h : LookupInv H sys lost g) (ha : sys.MayCall call) (hc : sys.KeepsPages H call)
    (hp : sys.performCall H call = some sys') : ∃ lost' g', LookupInv H sys' lost' g' := by
  cases call with
  | recycle =>
    obtain ⟨⟨heap', mem'⟩, he, rfl⟩ := Option.map_eq_some_iff.mp hp
    obtain ⟨g', hg'⟩ := h.recycleSegments_ok (fun id a hal hflag =>
      ((h.inv.segmentInv id).used_eq_zero hal).mp (hc id _ (h.lists id) a hal hflag)) he
    exact ⟨lost, g', hg'⟩
  | call action =>
    cases action with
    | allocate size arena =>
      obtain ⟨r, g', he, hg'⟩ := h.allocate_ok ha hc
      rw [HeapSystem.performCall, HeapSystem.perform, he] at hp
      cases hp
      exact ⟨lost, g', hg'⟩
    | deallocate x =>
      obtain ⟨heap', mem', lost', g', he, hg'⟩ := h.deallocate_ok ha
      rw [HeapSystem.performCall, HeapSystem.perform, he] at hp
      cases hp
      exact ⟨lost', g', hg'⟩
    | store address value =>
      obtain ⟨x, hx, hlo, hhi⟩ := ha
      cases hp
      exact ⟨lost, g, h.store_ok hx hlo hhi value⟩

end LookupInv

theorem create_checks {pageAlignment : Nat} {request : Nat → Nat} {queueMemory : SegmentId → Bool}
    {heap heap' : SimpleHeapPow2} {mem mem' : Memory}
    (h : SimpleHeapPow2.create H params pageAlignment request queueMemory heap mem = some (true, heap', mem')) :
    params.smallObjectLogicalPageSize ≠ 0 ∧ pageAlignment = params.smallObjectLogicalPageSize := by
  rw [SimpleHeapPow2.create] at h
  split at h
  · cases h
  · rename_i hchecks
    refine ⟨fun h0 => hchecks (.inl h0), ?_⟩
    by_contra hne
    exact hchecks (.inr (.inr (.inl hne)))

theorem HeapRun.inv (h : HeapRun H params (HeapSystem.KeepsPages H) sys)
    (hpower : ∃ k, params.smallObjectLogicalPageSize = 2^k) (hbytes : heapBytes params < 2^64) :
    ∃ lost g, LookupInv H sys lost g := by
  induction h with
  | create hword hfresh h =>
    obtain ⟨k, hk⟩ := hpower
    rw [calculateRequiredBufferSize_eq hbytes, (create_checks h).2] at hfresh
    have houtcome := create_heap_spec hk hbytes (fun hb => ⟨(hfresh hb).aligned, (hfresh hb).inside⟩) h
    obtain ⟨_, g, hcreated⟩ := houtcome.created rfl
    refine ⟨[], g, hcreated.inv, by simp, fun hlocal => ⟨?_, hcreated.bigPages.le⟩⟩
    exact (hcreated.bigBufferLength hlocal).trans hcreated.bigPageSize.symm
  | step _ ha hc hp ih =>
    obtain ⟨lost, g, hg⟩ := ih
    exact hg.perform_ok ha hc hp

end

/-- The arena gives a heap what its runs ask for: bytes that are aligned and apart from every range
that is held. -/
theorem arena_answers_fresh {policy : Arenas.VirtualMemoryPolicy} {vm capacity alignment size ret : Nat}
    {sys sys' : Arenas.ArenaSystem} {answers : Arenas.SystemAnswers}
    {calls : List Library.AddressSpace.SystemCall} (hvm : 0 < vm) (halign : 0 < alignment) (hdvd : vm ∣ alignment)
    (hcapacity : vm ∣ capacity) (hbound : capacity + alignment < 2^64)
    (h : Arenas.ArenaReachable policy vm capacity alignment sys)
    (ha : sys.Allowed alignment (.allocate size answers))
    (hp : sys.perform policy (.allocate size answers) = some (ret, calls, sys'))
    (hsystem : Library.AddressSpace.Grants vm sys.mapped calls) (hret : ret ≠ 0) :
    FreshFor alignment (fun c => ∃ b ∈ sys.granted, b.Holds c) ret size := by
  have hinv := h.inv hvm halign hdvd hcapacity hbound
  obtain ⟨hinv', hsafe⟩ := (Arenas.perform_ok hinv hvm halign hdvd ha).2 _ _ _ hp hsystem
  have haligned := (hsafe.result size answers rfl hret).1
  simp only [Arenas.ArenaSystem.perform, Option.map_eq_some_iff, Prod.mk.injEq, Prod.exists] at hp
  obtain ⟨ret, arena, calls, halloc, rfl, rfl, rfl⟩ := hp
  rw [if_neg hret] at hinv'
  obtain ⟨hallocated, harena⟩ := hinv.arena.allocate hvm halign hdvd ha.2.1 ha.2.2 halloc hsystem
  refine ⟨hret, haligned, ?_, ?_⟩
  · have hinside := harena.inside
    cases hallocated with
    | cached hfit =>
      dsimp only at hinside
      omega
    | refused => exact absurd rfl hret
    | rebuilt => exact hinside
  · rintro c ⟨b, hb, hc⟩
    have hapart := (List.pairwise_cons.mp hinv'.apart).1 b hb c
    simp only [Library.Tiling.Block.Holds] at hapart hc
    omega

theorem HeapRun.pageSize {H : HeapType} {params : HeapCreationParams} {sys : HeapSystem}
    {condition : HeapSystem → HeapCall → Prop} (h : HeapRun H params condition sys) :
    params.smallObjectLogicalPageSize ≠ 0 ∧ params.smallObjectLogicalPageSize < 2^64 := by
  induction h with
  | create hword _ h => exact ⟨(create_checks h).1, hword⟩
  | step _ _ _ _ ih => exact ih

/-- `create` accepts page sizes for which the mask does not lead to the page: it does exactly for
powers of two. With one, and with growth granted in full, the mask finds the listed page of
every small object in every state of every run. -/
theorem small_object_lookup {H : HeapType} {params : HeapCreationParams} {sys : HeapSystem}
    (h : HeapRun H params (HeapSystem.KeepsPages H) sys) :
    ((∀ p < 2^64, Segment.getLogicalPageFromAddress p params.smallObjectLogicalPageSize =
        p - p % params.smallObjectLogicalPageSize) ↔ ∃ k, params.smallObjectLogicalPageSize = 2^k) ∧
    ((∃ k, params.smallObjectLogicalPageSize = 2^k) → heapBytes params < 2^64 →
      ∀ x ∈ sys.live, ∀ i, x.segment = .small i → ∃ l, sys.Lists (.small i) l ∧
        Segment.getLogicalPageFromAddress x.ptr sys.heap.smallObjectLogicalPageSize ∈ l ∧
        onPage sys.heap.smallObjectLogicalPageSize
          (Segment.getLogicalPageFromAddress x.ptr sys.heap.smallObjectLogicalPageSize) x.ptr = true) := by
  refine ⟨getLogicalPageFromAddress_eq_iff h.pageSize.1 h.pageSize.2, fun hpower hbytes x hx i hi => ?_⟩
  obtain ⟨lost, g, hg⟩ := h.inv hpower hbytes
  obtain ⟨a, ha, _, hlo, hhi⟩ := hg.inv.owner (LookupInv.mem_liveOf hx)
  rw [hi] at ha hhi
  have hlookup : Segment.getLogicalPageFromAddress x.ptr (sys.heap.bins i).logicalPageSize = a :=
    (hg.inv.segmentInv (.small i)).getLogicalPageFromAddress rfl ha hlo hhi
  rw [← hg.inv.config.pageSize i, hlookup]
  refine ⟨_, hg.lists (.small i), ha, ?_⟩
  simp only [onPage, Bool.and_eq_true, decide_eq_true_eq]
  exact ⟨hlo, hhi⟩

theorem HeapRun.request {H : HeapType} {params : HeapCreationParams} {sys sys' : HeapSystem} {size : Nat}
    {condition : HeapSystem → HeapCall → Prop}
    (hc : ∀ sys, condition sys (.call (.allocate size refusingArena))) (h : HeapRun H params condition sys)
    (hp : sys.perform H (.allocate size refusingArena) = some sys') : HeapRun H params condition sys' := by
  have ha : sys.MayCall (.call (.allocate size refusingArena)) :=
    ⟨fun _ hb => absurd rfl hb, fun _ hb => absurd rfl hb⟩
  exact h.step ha (hc sys) hp

theorem small_object_lookup_of_one :
    ∃ sys, HeapRun singleThreadHeap onePageEach (HeapSystem.KeepsPages singleThreadHeap) sys ∧
      ⟨1052656, 16, .small 0, 1048576⟩ ∈ sys.live ∧
      ∃ l, sys.Lists (.small 0) l ∧
        Segment.getLogicalPageFromAddress 1052656 sys.heap.smallObjectLogicalPageSize ∈ l := by
  have hok : (createOnePageEach fun _ => 0).map (fun r => r.1) = some true := by decide +kernel
  obtain ⟨⟨ok, heap, mem⟩, hcreate, rfl⟩ := Option.map_eq_some_iff.mp hok
  have hlive : ((createOnePageEach fun _ => 0).bind fun r =>
      (HeapSystem.perform singleThreadHeap ⟨r.2.1, r.2.2, []⟩ (.allocate 16 refusingArena)).map HeapSystem.live) =
      some [⟨1052656, 16, .small 0, 1048576⟩] := by decide +kernel
  rw [hcreate] at hlive
  obtain ⟨sys, hp, hlive⟩ := Option.map_eq_some_iff.mp hlive
  have hcreated : HeapRun singleThreadHeap onePageEach (HeapSystem.KeepsPages singleThreadHeap) ⟨heap, mem, []⟩ := by
    refine .create (by decide) (fun _ => ?_) hcreate
    exact ⟨by decide +kernel, by decide +kernel, by decide +kernel, fun _ hf => hf.elim⟩
  have hrun := hcreated.request (fun _ _ => refusingArena_grantedInFull) hp
  have hx : ⟨1052656, 16, .small 0, 1048576⟩ ∈ sys.live := by
    rw [hlive]
    exact List.mem_singleton_self _
  obtain ⟨l, hl, hmem, _⟩ := (small_object_lookup hrun).2 ⟨12, rfl⟩ (by decide) _ hx 0 rfl
  exact ⟨sys, hrun, hx, l, hl, hmem⟩

def threeGranules : HeapCreationParams :=
  { smallObjectLogicalPageSize := 12288, bigObjectLogicalPageSize := 12288, segmentGrowCoefficient := .zero }

def createThreeGranules : Option (Bool × SimpleHeapPow2 × Memory) :=
  SimpleHeapPow2.create singleThreadHeap threeGranules 12288 (fun _ => 1253376) (fun _ => true) {}
    ⟨fun _ => 0, fun _ => {}, [], []⟩

/-- A page size that is no power of two is accepted, and the first small object already has no
header where the mask leads. -/
theorem small_object_not_found :
    ∃ sys, HeapRun singleThreadHeap threeGranules (fun _ _ => True) sys ∧
      ⟨1265648, 16, .small 0, 1253376⟩ ∈ sys.live ∧ sys.Lists (.small 0) [1253376] ∧
      Segment.getLogicalPageFromAddress 1265648 sys.heap.smallObjectLogicalPageSize = 1261568 := by
  have hok : createThreeGranules.map (fun r => r.1) = some true := by decide +kernel
  obtain ⟨⟨ok, heap, mem⟩, hcreate, rfl⟩ := Option.map_eq_some_iff.mp hok
  have hstate : (createThreeGranules.bind fun r =>
      (HeapSystem.perform singleThreadHeap ⟨r.2.1, r.2.2, []⟩ (.allocate 16 refusingArena)).map fun sys =>
        ((sys.live, sys.heap.smallObjectLogicalPageSize), (sys.heap.bins 0).head, sys.memory.getNext 1253376)) =
      some (([⟨1265648, 16, .small 0, 1253376⟩], 12288), 1253376, 0) := by decide +kernel
  rw [hcreate] at hstate
  obtain ⟨sys, hp, hstate⟩ := Option.map_eq_some_iff.mp hstate
  simp only [Prod.mk.injEq] at hstate
  obtain ⟨⟨hlive, hsize⟩, hlist⟩ := hstate
  have hcreated : HeapRun singleThreadHeap threeGranules (fun _ _ => True) ⟨heap, mem, []⟩ := by
    refine .create (by decide) (fun _ => ?_) hcreate
    exact ⟨by decide +kernel, by decide +kernel, by decide +kernel, fun _ hf => hf.elim⟩
  refine ⟨sys, hcreated.request (fun _ => trivial) hp, ?_, ⟨hlist, by decide⟩, ?_⟩
  · rw [hlive]
    exact List.mem_singleton_self _
  · rw [hsize]
    decide +kernel

end Metamalloc.Heaps
