import Metamalloc.Allocator.Reallocation
import Metamalloc.Pages.UsableSize

/-! Whole calls of `allocate` along the runs of the allocator, and the blocks behind what they return. -/
namespace Metamalloc.Allocator
open Library.Word64 Library.ByteMemory Library.LinkedList Library.Tiling Pages Segments Heaps ScalableAllocator

namespace AllocatorSystem
variable (A : AllocatorType)

/-- The state in which a call of the thread asks the central heap: it has no heap, or its heap has refused. -/
def AsksCentral (thread size : Nat) (arena : ArenaAnswers) (sys sys' : AllocatorSystem) : Prop :=
  (sys.allocator.threadLocalStorage thread = none ∧ sys' = sys) ∨
    (sys.perform A (.allocateLocal thread size arena) = some sys' ∧ sys'.live = sys.live)

/-- The steps of a call of `allocate` are allowed and keep the intervals right. -/
def SoundCall (answers : CallAnswers) (thread size : Nat) (sys : AllocatorSystem) : Prop :=
  sys.MayDo (.getThreadLocalHeap thread answers.heap) ∧
  sys.KeepsIntervals A (.getThreadLocalHeap thread answers.heap) ∧
  ∀ sys₁ sys₂, sys.perform A (.getThreadLocalHeap thread answers.heap) = some sys₁ →
    AsksCentral A thread size answers.arena sys₁ sys₂ →
    sys₂.MayDo (.allocateCentral size answers.arena) ∧ sys₂.KeepsIntervals A (.allocateCentral size answers.arena)

def CallLeads (answers : CallAnswers) (thread size : Nat) (sys sys' : AllocatorSystem) : Prop :=
  ∃ calls, performAll A (.getThreadLocalHeap thread answers.heap :: calls) sys = some sys' ∧
    (calls = [.allocateLocal thread size answers.arena] ∨ calls = [.allocateCentral size answers.arena] ∨
      calls = [.allocateLocal thread size answers.arena, .allocateCentral size answers.arena])

end AllocatorSystem

section
variable {A : AllocatorType} {params : CreationParams} {creation : CreationAnswers} {sys sys' : AllocatorSystem}
  {built : Nat → Prop} {g : Option Nat × SegmentId → Ghost} {answers : CallAnswers} {thread size ret : Nat}
  {central : Bool} {a : ScalableAllocator} {mem : Memory}

theorem HeapsInv.local_returns {i : Nat} (size : Nat) (arena : ArenaAnswers) (h : HeapsInv A sys built g)
    (hpolicy : A.localHeap.concurrency = .threadLocal) (hi : sys.allocator.threadLocalStorage thread = some i) :
    ∃ ret a mem, onLocalHeap (SimpleHeapPow2.allocate A.localHeap arena size) i (sys.allocator, sys.memory) =
        some (ret, a, mem) ∧
      Spares sys.memory mem (sys.live.map Held.allocation) := by
  obtain ⟨hbuilt, hactive⟩ := h.storage thread i hi
  obtain ⟨sys₁, g₁, he₁, -, -, hspares⟩ := h.allocateLocal_ok size arena hpolicy hbuilt hactive
  obtain ⟨r, he, rfl⟩ := Option.map_eq_some_iff.mp he₁
  exact ⟨_, _, _, Option.map_eq_some_iff.mpr ⟨r, he, rfl⟩, hspares⟩

theorem HeapsInv.central_returns {arena : ArenaAnswers} (h : HeapsInv A sys built g)
    (ha : sys.MayDo (.allocateCentral size arena)) (hc : sys.KeepsIntervals A (.allocateCentral size arena)) :
    ∃ ret a mem, onCentralHeap (SimpleHeapPow2.allocate A.centralHeap arena size) (sys.allocator, sys.memory) =
        some (ret, a, mem) ∧
      Spares sys.memory mem (sys.live.map Held.allocation) := by
  obtain ⟨sys₁, g₁, he₁, -, -, hspares⟩ := h.allocateCentral_ok ha hc
  obtain ⟨r, he, rfl⟩ := Option.map_eq_some_iff.mp he₁
  exact ⟨_, _, _, Option.map_eq_some_iff.mpr ⟨r, he, rfl⟩, hspares⟩

theorem ScalableAllocator.getThreadLocalHeap_returns (answers : HeapAnswers) (thread : Nat) (a : ScalableAllocator)
    (mem : Memory) : ∃ r, getThreadLocalHeap A answers thread a mem = some r := by
  rw [getThreadLocalHeap]
  cases a.threadLocalStorage thread with
  | some i => exact ⟨_, rfl⟩
  | none =>
    dsimp only
    split
    · exact ⟨_, rfl⟩
    split
    · obtain ⟨r, hcreate⟩ := @create_heap_returns A.localHeap a.localHeapCreationParams answers.queueMemory mem
        a.arenaPageAlignment answers.request
      rw [createLocalHeap, hcreate]
      exact ⟨_, rfl⟩
    · exact ⟨_, rfl⟩

/-- A sound call of `allocate` returns, and leads from one state of a run to another. -/
theorem AllocatorRun.allocate_ok (hpolicy : A.localHeap.concurrency = .threadLocal)
    (hsound : SoundCreation params creation)
    (h : AllocatorRun A params creation (AllocatorSystem.KeepsIntervals A) sys)
    (hcall : sys.SoundCall A answers thread size) :
    ∃ ret central a mem owner,
      allocate A answers thread size sys.allocator sys.memory = some (ret, central, a, mem) ∧
      AllocatorRun A params creation (AllocatorSystem.KeepsIntervals A) (sys.afterRequest owner size ret a mem) ∧
      sys.CallLeads A answers thread size (sys.afterRequest owner size ret a mem) ∧
      Spares sys.memory mem (sys.live.map Held.allocation) := by
  obtain ⟨hmay, hkeeps, hcentral⟩ := hcall
  rw [allocate, allocateFrom]
  obtain ⟨⟨slot, a₁, mem₁⟩, hget⟩ :=
    getThreadLocalHeap_returns (A := A) answers.heap thread sys.allocator sys.memory
  rw [hget]
  dsimp only
  have hstored := getThreadLocalHeap_stored hget
  have hlookup : sys.perform A (.getThreadLocalHeap thread answers.heap) = some ⟨a₁, mem₁, sys.live⟩ := by
    rw [AllocatorSystem.perform, hget]
    rfl
  obtain ⟨built, g, hinv⟩ := h.inv hpolicy hsound
  obtain ⟨⟨built₁, g₁, hinv₁⟩, hspares₁⟩ := hinv.getThreadLocalHeap_ok hpolicy hsound hmay hkeeps hlookup
  have h₁ := h.step hmay hkeeps hlookup
  cases slot with
  | none =>
    have hask := hcentral _ _ hlookup (.inl ⟨hstored, rfl⟩)
    obtain ⟨ret, a, mem, hon, hspares⟩ := hinv₁.central_returns hask.1 hask.2
    have hstep := AllocatorSystem.performs_central ⟨a₁, mem₁, sys.live⟩ hon
    rw [Option.map_none, failover, hon]
    refine ⟨ret, true, a, mem, none, rfl, h₁.step hask.1 hask.2 hstep, ⟨_, ?_, .inr (.inl rfl)⟩,
      hspares₁.trans hspares⟩
    rw [AllocatorSystem.performAll, hlookup, Option.bind_some, AllocatorSystem.performAll, hstep]
    rfl
  | some i =>
    obtain ⟨ret₁, a₂, mem₂, hlocal, hspares₂⟩ := hinv₁.local_returns size answers.arena hpolicy hstored
    have hstep := AllocatorSystem.performs_local ⟨a₁, mem₁, sys.live⟩ hstored hlocal
    have hmay₁ : AllocatorSystem.MayDo ⟨a₁, mem₁, sys.live⟩ (.allocateLocal thread size answers.arena) := trivial
    have h₂ := h₁.step hmay₁ trivial hstep
    rw [Option.map_some, failover, hlocal]
    dsimp only
    by_cases hret : ret₁ = 0
    · subst hret
      rw [if_pos rfl]
      have hask := hcentral _ _ hlookup (.inr ⟨hstep, rfl⟩)
      obtain ⟨built₂, g₂, hinv₂⟩ := h₂.inv hpolicy hsound
      obtain ⟨ret, a, mem, hon, hspares₃⟩ := hinv₂.central_returns hask.1 hask.2
      have hstep' := AllocatorSystem.performs_central ⟨a₂, mem₂, sys.live⟩ hon
      have hon' : onCentralHeap (SimpleHeapPow2.allocate A.centralHeap answers.arena size) (a₂, mem₂) =
          some (ret, a, mem) := hon
      rw [hon']
      refine ⟨ret, true, a, mem, none, rfl, h₂.step hask.1 hask.2 hstep', ⟨_, ?_, .inr (.inr rfl)⟩,
        (hspares₁.trans hspares₂).trans hspares₃⟩
      rw [AllocatorSystem.performAll, hlookup, Option.bind_some, AllocatorSystem.performAll, hstep,
        Option.bind_some, AllocatorSystem.afterRequest, if_pos rfl, AllocatorSystem.performAll, hstep']
      rfl
    · rw [if_neg hret]
      refine ⟨ret₁, false, a₂, mem₂, some i, rfl, h₂, ⟨_, ?_, .inl rfl⟩, hspares₁.trans hspares₂⟩
      rw [AllocatorSystem.performAll, hlookup, Option.bind_some, AllocatorSystem.performAll, hstep]
      rfl

/-- A client copies bytes to what it holds, one after the other. -/
theorem AllocatorRun.copied {y : Held} {n : Nat} (source : Nat)
    (h : AllocatorRun A params creation (AllocatorSystem.KeepsIntervals A) sys) (hy : y ∈ sys.live)
    (hn : n ≤ y.size) :
    AllocatorRun A params creation (AllocatorSystem.KeepsIntervals A)
      { sys with memory := memcpy y.ptr source n sys.memory } := by
  induction n with
  | zero =>
    have hsame : memcpy y.ptr source 0 sys.memory = sys.memory := by rw [memcpy, copy_zero]
    rw [hsame]
    exact h
  | succ n ih =>
    have hstore : AllocatorSystem.MayDo { sys with memory := memcpy y.ptr source n sys.memory }
        (.store (y.ptr + n) (sys.memory.bytes (source + n))) := ⟨y, hy, by omega, by omega⟩
    refine (ih (by omega)).step hstore trivial ?_
    rw [AllocatorSystem.perform, memcpy, memcpy, copy_succ]

end

/-- A chunk of the size class of the page, or the block that the header in front of the pointer stores. -/
def blockBehind : SegmentId → (ptr : Nat) → Page → Block
  | .small _, ptr, p => ⟨ptr, p.header.sizeClass⟩
  | .big, ptr, p => LogicalPageAnySize.liveBlock p.bytes ptr

def paddingOf : SegmentId → (ptr : Nat) → Mem → Nat
  | .small _, _, _ => 0
  | .big, ptr, bytes => LogicalPageAnySize.getPaddingSize bytes (ptr - 16)

def usableOn : SegmentId → (ptr : Nat) → Page → Nat
  | .small _ => LogicalPage.getUsableSize
  | .big => LogicalPageAnySize.getUsableSize

/-- The block that was reserved for an allocation reaches so many bytes behind its pointer. -/
def AllocatorSystem.BlockHolds (sys : AllocatorSystem) (x : Held) (n : Nat) : Prop :=
  ∃ l page, sys.Lists x.owner x.segment l ∧ page ∈ l ∧
    onPage ((sys.allocator.heapAt x.owner).segment x.segment).logicalPageSize page x.ptr = true ∧
    x.ptr + n ≤ (blockBehind x.segment x.ptr (sys.memory.page page)).start +
      (blockBehind x.segment x.ptr (sys.memory.page page)).size

section
variable {H : HeapType} {id : SegmentId} {p : Page} {live : List Allocation} {y : Allocation}

/-- The size that is reported covers the padding and what was granted. -/
theorem block_usable (h : (H.laws id).Inv p live) (hy : y ∈ live) :
    y.ptr + usableOn id y.ptr p = (blockBehind id y.ptr p).start + (blockBehind id y.ptr p).size +
        paddingOf id y.ptr p.bytes ∧
      y.size + paddingOf id y.ptr p.bytes ≤ usableOn id y.ptr p := by
  cases id with
  | small i =>
    have hsize : y.size = p.header.sizeClass := ((H.laws (.small i)).fixed rfl).2 h hy
    simp only [usableOn, blockBehind, paddingOf, LogicalPage.getUsableSize, hsize]
    omega
  | big =>
    obtain ⟨free, taken, hr, hl⟩ : LogicalPageAnySize.Inv p live := h
    obtain ⟨z, hz, rfl⟩ := LogicalPageAnySize.Represents.mem_live hl hy
    have hfit := (hr.fits z hz).1
    have hpadding := hr.padding_eq hz
    have husable := hr.usable_eq hz
    have hblock := hr.liveBlock_eq hz
    simp only [usableOn, blockBehind, paddingOf, LogicalPageAnySize.TakenBlock.allocation]
    rw [husable, hblock, hpadding]
    simp only [LogicalPageAnySize.TakenBlock.block, LogicalPageAnySize.TakenBlock.ptr]
    omega

end

section
variable {A : AllocatorType} {sys : AllocatorSystem} {built : Nat → Prop} {g : Option Nat × SegmentId → Ghost}
  {x : Held} {n usable : Nat} {H : HeapType} {heap : SimpleHeapPow2} {mem : Memory} {ptr : Nat}

/-- `get_usable_size` decides between the bins as `deallocate` does. -/
theorem getUsableSize_of_small {i : Fin smallObjectBinCount}
    (h : SimpleHeapPow2.pointerTarget H ptr heap mem = some (.small i)) :
    SimpleHeapPow2.getUsableSize H ptr heap mem =
      some (Segment.getSizeClassFromAddress ptr heap.smallObjectLogicalPageSize mem) := by
  obtain ⟨owns, howns, htarget⟩ := Option.map_eq_some_iff.mp h
  cases owns with
  | true => cases htarget
  | false => rw [SimpleHeapPow2.getUsableSize, howns]

theorem getUsableSize_of_big (h : SimpleHeapPow2.pointerTarget H ptr heap mem = some .big) :
    SimpleHeapPow2.getUsableSize H ptr heap mem =
      Segment.getUsableSize H.segmentBigObject ptr heap.bigObjectBin mem := by
  obtain ⟨owns, howns, htarget⟩ := Option.map_eq_some_iff.mp h
  cases owns with
  | true => rw [SimpleHeapPow2.getUsableSize, howns]
  | false => cases htarget

namespace HeapsInv

/-- The lookup reaches the page of an address, which reports the size. -/
theorem usable_of_page {a : Nat} {o : Option Nat} {id : SegmentId} (h : HeapsInv A sys built g) (ho : Built built o)
    (hactive : ∀ i, o = some i → i < sys.allocator.activeLocalHeapCount) (ha : a ∈ (g (o, id)).pages)
    (hlo : a ≤ ptr) (hhi : ptr < a + (sys.allocator.segmentAt (o, id)).logicalPageSize) :
    getUsableSize A ptr sys.allocator sys.memory = some (usableOn id ptr (sys.memory.page a)) := by
  have hheap := h.heapInv ho
  have htarget := h.target_of_page ho ha hlo hhi
  have husable : SimpleHeapPow2.getUsableSize (A.heapType o) ptr (sys.allocator.heapAt o) sys.memory =
      some (usableOn id ptr (sys.memory.page a)) := by
    cases id with
    | small i =>
      have hclass : (sys.memory.pages a).sizeClass = ((sys.allocator.heapAt o).bins i).sizeClass :=
        ((hheap.segmentInv (.small i)).frame a ha).2.2
      rw [getUsableSize_of_small htarget, hheap.getSizeClassFromAddress ha hlo hhi, ← hheap.config.sizeClass i,
        ← hclass]
      rfl
    | big =>
      have hfind : Segment.findLogicalPage (sys.allocator.heapAt o).bigObjectBin.logicalPageSize ptr sys.memory
          walkLimit (sys.allocator.heapAt o).bigObjectBin.head = some a :=
        (hheap.segmentInv .big).findLogicalPage ha hlo hhi
      have hne : a ≠ 0 := (hheap.segmentInv .big).listed.ne_zero ha
      rw [getUsableSize_of_big htarget, Segment.getUsableSize, hfind]
      exact congrArg some (if_neg hne)
  have hne : ptr ≠ 0 := by
    have := (hheap.segmentInv id).listed.ne_zero ha
    omega
  rw [getUsableSize, if_neg hne, h.owner_of_page ho hactive ha hlo hhi]
  cases o with
  | none => exact husable
  | some i => exact husable

theorem getUsableSize_eq (h : HeapsInv A sys built g) (hx : x ∈ sys.live) :
    ∃ a ∈ (g x.place).pages, x.allocation ∈ (g x.place).owned a ∧ a ≤ x.ptr ∧
      x.ptr < a + (sys.allocator.segmentAt x.place).logicalPageSize ∧
      getUsableSize A x.ptr sys.allocator sys.memory =
        some (usableOn x.segment x.ptr (sys.memory.page a)) := by
  obtain ⟨a, ha, howned, hlo, hhi⟩ := h.page hx
  exact ⟨a, ha, howned, hlo, hhi, h.usable_of_page (h.held x hx).1 (h.held x hx).2 ha hlo hhi⟩

/-- A block reaches as far as the size that is reported for it, less its padding. -/
theorem blockHolds_iff (h : HeapsInv A sys built g) (hx : x ∈ sys.live)
    (hu : getUsableSize A x.ptr sys.allocator sys.memory = some usable) :
    sys.BlockHolds x n ↔ n + paddingOf x.segment x.ptr sys.memory.bytes ≤ usable := by
  obtain ⟨a, ha, howned, hlo, hhi, heq⟩ := h.getUsableSize_eq hx
  obtain rfl := Option.some.inj (hu.symm.trans heq)
  have hbuilt := (h.held x hx).1
  have hinv := (h.heapInv hbuilt).segmentInv x.segment
  have hblock := block_usable (hinv.page a ha) howned
  have hbytes : (sys.memory.page a).bytes = sys.memory.bytes := rfl
  rw [hbytes] at hblock
  constructor
  · rintro ⟨l, page, hlists, hpage, hon, hend⟩
    obtain rfl := ((h.heapInv hbuilt).system x.segment).eq_of_lists hlists
    -- two pages of a list do not share an address
    obtain rfl : page = a := by
      by_contra hne
      have hapart := hinv.apart_of_ne hpage ha hne
      have hon := onPage_iff.mp hon
      simp only [PagesApart] at hapart
      have hhi' : x.ptr < a + ((sys.allocator.heapAt x.owner).segment x.segment).logicalPageSize := hhi
      omega
    have hptr : x.allocation.ptr = x.ptr := rfl
    rw [hptr] at hblock
    omega
  · intro hle
    refine ⟨_, a, h.lists hbuilt x.segment, ha, onPage_iff.mpr ⟨hlo, hhi⟩, ?_⟩
    have hptr : x.allocation.ptr = x.ptr := rfl
    rw [hptr] at hblock
    omega

/-- What was granted is inside the block. -/
theorem blockHolds_granted (h : HeapsInv A sys built g) (hx : x ∈ sys.live) : sys.BlockHolds x x.allocation.size := by
  obtain ⟨a, ha, howned, -, -, heq⟩ := h.getUsableSize_eq hx
  rw [h.blockHolds_iff hx heq]
  exact (block_usable (((h.heapInv (h.held x hx).1).segmentInv x.segment).page a ha) howned).2

theorem not_mem_erase (h : HeapsInv A sys built g) (hx : x ∈ sys.live) :
    x.allocation ∉ heldAt (sys.live.erase x) x.place := by
  intro hmem
  have hsystem := h.family.system x.place (h.held x hx).1
  have hperm : (heldAt sys.live x.place).Perm (x.allocation :: heldAt (sys.live.erase x) x.place) :=
    liveAt_perm_cons hx
  have hone := List.nodup_iff_count_le_one.mp (hsystem.segment.out_nodup.of_map _) x.allocation
  have hshared := hsystem.shared x.allocation
  have hcount := hperm.count_eq x.allocation
  rw [List.count_cons_self] at hcount
  have hpos := List.count_pos_iff.mpr hmem
  simp only [atRest] at hshared
  omega

theorem apart (h : HeapsInv A sys built g) {y : Held} (hx : x ∈ sys.live) (hy : y ∈ sys.live.erase x) :
    x.allocation.Apart y.allocation := by
  have hy' := List.mem_of_mem_erase hy
  obtain ⟨a, ha, hxa, -, -⟩ := h.page hx
  obtain ⟨b, hb, hyb, -, -⟩ := h.page hy'
  have hx₀ := (h.family.system x.place (h.held x hx).1).segment
  have hy₀ := (h.family.system y.place (h.held y hy').1).segment
  by_cases hplace : y.place = x.place
  · rw [hplace] at hyb
    refine hx₀.owned_apart hxa hyb (.inr fun heq => h.not_mem_erase hx ?_)
    rw [heq, ← hplace]
    exact mem_liveAt hy
  · have hinx := hx₀.owned_inside hxa
    have hiny := hy₀.owned_inside hyb
    simp only [Allocation.Apart]
    by_contra hmeet
    -- the higher of the two pointers would lie on pages of both segments
    refine h.family.apart x.place y.place (h.held x hx).1 (h.held y hy').1 (Ne.symm hplace)
      (max x.allocation.ptr y.allocation.ptr) ⟨a, ha, ?_, ?_⟩ ⟨b, hb, ?_, ?_⟩
    all_goals
      simp only [atRest] at hinx hiny
      omega

theorem size_pos (h : HeapsInv A sys built g) (hx : x ∈ sys.live) : 0 < x.allocation.size := by
  obtain ⟨c, -, howned, -, -⟩ := h.page hx
  exact ((h.family.system x.place (h.held x hx).1).segment.owned_inside howned).1

theorem ptr_ne (h : HeapsInv A sys built g) {y : Held} (hx : x ∈ sys.live) (hy : y ∈ sys.live.erase x) :
    y.ptr ≠ x.ptr := by
  intro heq
  have hapart := h.apart hx hy
  have hpositive := h.size_pos hx
  have hpositive' := h.size_pos (List.mem_of_mem_erase hy)
  simp only [Allocation.Apart, Held.allocation] at hapart hpositive hpositive'
  omega

/-- What a client holds after a request that was served. -/
theorem mem_afterRequest {owner : Option Nat} {size ret : Nat} {a : ScalableAllocator} (hret : ret ≠ 0) :
    (⟨ret, size, owner, (SimpleHeapPow2.requestTarget size).1⟩ : Held) ∈
      (sys.afterRequest owner size ret a mem).live := by
  rw [AllocatorSystem.afterRequest, if_neg hret]
  exact List.mem_cons_self

end HeapsInv

/-- The contents of an allocation are copied to a new one, and the old one is given back. -/
theorem AllocatorRun.moved {params : CreationParams} {creation : CreationAnswers} {owner : Option Nat}
    {size ret oldSize : Nat} {a : ScalableAllocator}
    (hpolicy : A.localHeap.concurrency = .threadLocal) (hsound : SoundCreation params creation)
    (h : AllocatorRun A params creation (AllocatorSystem.KeepsIntervals A) (sys.afterRequest owner size ret a mem))
    (hret : ret ≠ 0) (hx : x ∈ sys.live) (hold : oldSize ≤ size) :
    ret ≠ x.ptr ∧ ∃ a' mem', deallocate A x.ptr a (memcpy ret x.ptr oldSize mem) = some (a', mem') ∧
      AllocatorRun A params creation (AllocatorSystem.KeepsIntervals A)
        ⟨a', mem', ⟨ret, size, owner, (SimpleHeapPow2.requestTarget size).1⟩ :: sys.live.erase x⟩ ∧
      Spares (memcpy ret x.ptr oldSize mem) mem'
        ((⟨ret, size, owner, (SimpleHeapPow2.requestTarget size).1⟩ :: sys.live.erase x : List Held).map
          Held.allocation) := by
  obtain ⟨y, hy⟩ : ∃ y : Held, y = ⟨ret, size, owner, (SimpleHeapPow2.requestTarget size).1⟩ := ⟨_, rfl⟩
  have hlive : (sys.afterRequest owner size ret a mem).live = y :: sys.live := by
    rw [hy]
    exact if_neg hret
  have hcopied := h.copied (y := y) (n := oldSize) x.ptr (hlive ▸ List.mem_cons_self) (by rw [hy]; exact hold)
  have hptr : y.ptr = ret := by rw [hy]
  rw [hptr] at hcopied
  obtain ⟨built, g, hinv⟩ := hcopied.inv hpolicy hsound
  have hmem : x ∈ y :: sys.live := List.mem_cons_of_mem _ hx
  have hxold : x ∈ (sys.afterRequest owner size ret a mem).live := hlive ▸ hmem
  have hne : y.ptr ≠ x.ptr := by
    refine (hinv.ptr_ne (x := y) (y := x) (hlive ▸ List.mem_cons_self) ?_).symm
    show x ∈ (sys.afterRequest owner size ret a mem).live.erase y
    rw [hlive, List.erase_cons_head]
    exact hx
  have herase : (sys.afterRequest owner size ret a mem).live.erase x = y :: sys.live.erase x := by
    rw [hlive, List.erase_cons_tail]
    exact fun heq => hne (congrArg Held.ptr (beq_iff_eq.mp heq))
  obtain ⟨_, s', mem', _, _, _, _, hfree, _, _, hspares⟩ := hinv.deallocate_ok hxold
  have hstep : AllocatorSystem.perform A { sys.afterRequest owner size ret a mem with
      memory := memcpy ret x.ptr oldSize mem } (.deallocate x) =
      some ⟨a.setSegmentAt x.place s', mem', y :: sys.live.erase x⟩ := by
    rw [← herase]
    exact congrArg (Option.map _) hfree
  have hmay : AllocatorSystem.MayDo { sys.afterRequest owner size ret a mem with
      memory := memcpy ret x.ptr oldSize mem } (.deallocate x) := hxold
  rw [herase] at hspares
  rw [← hy]
  exact ⟨hptr ▸ hne, _, _, hfree, hcopied.step hmay trivial hstep, hspares⟩

end

theorem soundCall_exhausted {A : AllocatorType} {thread size : Nat} {sys : AllocatorSystem} :
    sys.SoundCall A exhaustedAnswers thread size :=
  ⟨(AsksNothing.getThreadLocalHeap thread).mayDo, (AsksNothing.getThreadLocalHeap thread).keepsIntervals,
    fun _ _ _ _ => ⟨(AsksNothing.allocateCentral size).mayDo, (AsksNothing.allocateCentral size).keepsIntervals⟩⟩

end Metamalloc.Allocator
