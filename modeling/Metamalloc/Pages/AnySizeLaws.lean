import Metamalloc.Pages.AnySizeOperations

/-! The any-size page as a segment and its clients see it, over whole runs. -/
namespace Metamalloc.Pages.LogicalPageAnySize
open Library.Word64 Library.ByteMemory Library.LinkedList Library.Tiling

theorem create_isSome_iff {buffer size sizeClass : Nat} {m : Mem} :
    (create buffer size sizeClass m).isSome ↔ size < 2^64 ∧ 16 < size ∧ buffer ≠ 0 ∧
      (buffer % 4096 = 0 ∨ sub64 buffer objectSize % 4096 = 0) := by
  have ha := isAddressPageAllocationGranularityAligned_iff buffer
  have hb := isAddressPageAllocationGranularityAligned_iff (sub64 buffer objectSize)
  unfold create
  simp only [nodeSize]
  split
  · simp only [Option.isSome_none, Bool.false_eq_true, false_iff]
    omega
  · split
    · simp only [Option.isSome_none, Bool.false_eq_true, false_iff]
      omega
    · split
      · rename_i hn
        simp only [Bool.and_eq_true, Bool.not_eq_true', Bool.eq_false_iff, ne_eq, ha, hb] at hn
        simp only [Option.isSome_none, Bool.false_eq_true, false_iff]
        omega
      · rename_i hn
        simp only [Bool.and_eq_true, Bool.not_eq_true', Bool.eq_false_iff, ne_eq, ha, hb] at hn
        simp only [Option.isSome_some, true_iff]
        omega

theorem create_eq_some {buffer size sizeClass : Nat} {m : Mem} {p : Page}
    (h : create buffer size sizeClass m = some p) :
    p = insert 0 buffer ⟨.ofBuffer buffer size sizeClass,
      clearNextPointer (setBlockSize m buffer size) buffer⟩ := by
  unfold create at h
  split at h
  · cases h
  · split at h
    · cases h
    · split at h
      · cases h
      · exact (Option.some.inj h).symm

theorem create_represents {buffer size sizeClass : Nat} {m : Mem} {p : Page}
    (h : create buffer size sizeClass m = some p) (hb : buffer + size < 2^64) :
    Represents p [⟨buffer, size⟩] [] ∧
      p.header = { LogicalPageHeader.ofBuffer buffer size sizeClass with head := p.header.head } ∧
      ∀ x, x < buffer ∨ buffer + size ≤ x → p.bytes x = m x := by
  obtain ⟨_, hsize, hne, _⟩ := create_isSome_iff.mp (Option.isSome_iff_exists.mpr ⟨p, h⟩)
  let p₀ : Page := ⟨.ofBuffer buffer size sizeClass,
    clearNextPointer (setBlockSize m buffer size) buffer⟩
  have hf : FreeList p₀.bytes p₀.header.head ([] ++ []) := ⟨rfl, by simp⟩
  have hp : Placed ([] ++ [⟨buffer, size⟩]) := by
    refine ⟨?_, ?_, List.pairwise_singleton _ _⟩
    · simpa using hne
    · simp only [List.nil_append, List.mem_singleton, forall_eq]
      omega
  have hs : read64 p₀.bytes (buffer + 8) = size := by
    change read64 (write64 (write64 m (buffer + 8) size) buffer 0) (buffer + 8) = size
    rw [read64_write64_of_disjoint (.inr le_rfl)]
    exact read64_write64_same (by omega)
  obtain ⟨q, hq, hfq, hqh, hqb⟩ := insert_spec hf hp hs
  obtain rfl : p = q := (create_eq_some h).trans hq
  have hend : p.header.bufferEnd = buffer + size := by
    rw [hqh]
    rfl
  refine ⟨⟨hfq, by simp, ?_, ?_, by simp, ?_, ?_, ?_, ?_⟩, hqh, fun x hx => ?_⟩
  · have ht := @tiles_singleton buffer (buffer + size) (by omega)
    rw [Nat.add_sub_cancel_left] at ht
    rw [hend, hqh]
    exact ht
  · simp only [List.mem_singleton, forall_eq]
    omega
  · rw [hqh]
    rfl
  · rw [hqh]
    exact Nat.pos_of_ne_zero hne
  · rw [hqh]
    exact hsize
  · rw [hend]
    exact hb
  · rw [hqb x (by omega) (.inl rfl)]
    exact (write64_apply (by omega)).trans (write64_apply (by omega))

section
variable {p q : Page} {free : List Block} {taken : List TakenBlock} {live : List Allocation}
  {x : Allocation} {y : TakenBlock}

/-- Clients may write what they were granted, and the segment its own header fields. -/
theorem Represents.congr {h' : LogicalPageHeader} {m' : Mem} (h : Represents p free taken)
    (hs : p.header.SameStore h')
    (hm : ∀ b, p.header.logicalPageStartAddress ≤ b → b < p.header.bufferEnd →
      (∀ y ∈ taken, ¬ y.allocation.Holds b) → m' b = p.bytes b) : Represents ⟨h', m'⟩ free taken := by
  obtain ⟨hhead, _, hused, hstart, hsize⟩ := hs
  have hend : h'.bufferEnd = p.header.bufferEnd := by
    rw [LogicalPageHeader.bufferEnd, hstart, hsize, LogicalPageHeader.bufferEnd]
  have hfree : ∀ b ∈ free, AgreeOn p.bytes m' b.start (b.start + 16) := by
    intro b hb x hlo hhi
    have hin := h.free_inside hb
    have h16 := h.node_fits b hb
    refine hm x (by omega) (by omega) ?_
    rintro y hy ⟨hlo', hhi'⟩
    have ha := h.free_apart_taken hb hy
    have hfit := (h.fits y hy).1
    simp only [Block.Apart, TakenBlock.block, TakenBlock.allocation, TakenBlock.ptr] at ha hlo' hhi'
    omega
  have htaken : ∀ y ∈ taken, AgreeOn p.bytes m' y.header (y.header + 16) := by
    intro y hy x hlo hhi
    have hin := h.taken_inside hy
    have hfit := (h.fits y hy).1
    simp only [TakenBlock.header] at hlo hhi
    refine hm x (by omega) (by omega) ?_
    rintro z hz ⟨hlo', hhi'⟩
    have hfit' := (h.fits z hz).1
    simp only [TakenBlock.allocation, TakenBlock.ptr] at hlo' hhi'
    have hap := (List.pairwise_append.mp h.tiles.apart).2.1
    rw [List.pairwise_map] at hap
    by_cases hyz : y = z
    · subst hyz
      omega
    · have : Std.Symm fun y z : TakenBlock => y.block.Apart z.block := ⟨fun _ _ h => h.symm⟩
      have ha := hap.forall hy hz hyz
      simp only [Block.Apart, TakenBlock.block] at ha
      omega
  refine ⟨?_, ?_, ?_, h.node_fits, h.fits, hused.trans h.used, ?_, ?_, ?_⟩
  · rw [hhead]
    exact h.freeList.frame hfree
  · intro y hy
    obtain ⟨h1, h2⟩ := h.stored y hy
    simp only [getPaddingSize, getBlockSize] at h1 h2 ⊢
    rw [((htaken y hy).mono le_rfl (by omega)).read64_eq,
      ((htaken y hy).mono (by omega) (by omega)).read64_eq]
    exact ⟨h1, h2⟩
  · rw [hend, hstart]
    exact h.tiles
  · rw [hstart]
    exact h.start_pos
  · rw [hsize]
    exact h.size_pos
  · rw [hend]
    exact h.bound

theorem Represents.perm {taken' : List TakenBlock} (h : Represents p free taken)
    (hp : taken.Perm taken') : Represents p free taken' where
  freeList := h.freeList
  stored y hy := h.stored y (hp.symm.subset hy)
  tiles := h.tiles.perm ((hp.map TakenBlock.block).append_left free)
  node_fits := h.node_fits
  fits y hy := h.fits y (hp.symm.subset hy)
  used := h.used.trans (hp.map TakenBlock.size).sum_eq
  start_pos := h.start_pos
  size_pos := h.size_pos
  bound := h.bound

theorem Represents.payload_inside (h : Represents p free taken) (hy : y ∈ taken) :
    p.header.logicalPageStartAddress + 16 ≤ y.ptr ∧ y.ptr + y.payload ≤ p.header.bufferEnd := by
  have hin := h.taken_inside hy
  have hfit := (h.fits y hy).1
  simp only [TakenBlock.ptr]
  omega

/-- The layout with the client's view: the granted payloads, in any order. -/
def Inv (p : Page) (live : List Allocation) : Prop :=
  ∃ free taken, Represents p free taken ∧ (taken.map TakenBlock.allocation).Perm live

theorem Inv.perm {live' : List Allocation} (h : Inv p live) (hp : live.Perm live') :
    Inv p live' := by
  obtain ⟨free, taken, h, hl⟩ := h
  exact ⟨free, taken, h, hl.trans hp⟩

theorem Represents.mem_live (hl : (taken.map TakenBlock.allocation).Perm live) (hx : x ∈ live) :
    ∃ y ∈ taken, y.allocation = x := List.mem_map.mp (hl.symm.subset hx)

/-- The taken blocks can be listed with the one of a given live allocation in front. -/
theorem Represents.front (h : Represents p free taken)
    (hl : (taken.map TakenBlock.allocation).Perm (x :: live)) :
    ∃ y rest, y.allocation = x ∧ Represents p free (y :: rest) ∧
      (rest.map TakenBlock.allocation).Perm live := by
  obtain ⟨y, hy, he⟩ := Represents.mem_live hl List.mem_cons_self
  obtain ⟨l, r, rfl⟩ := List.append_of_mem hy
  refine ⟨y, l ++ r, he, h.perm List.perm_middle, List.Perm.cons_inv (a := x) ?_⟩
  rw [← he] at hl ⊢
  exact ((List.perm_middle.map TakenBlock.allocation).symm).trans hl

theorem confined_of_untouched (hu : Untouched p q taken)
    (hfits : ∀ y ∈ taken, y.padding + 16 + y.payload ≤ y.size)
    (hl : (taken.map TakenBlock.allocation).Perm live) : Confined p q live := by
  refine ⟨hu.frame, fun b hb => hu.bytes b (.inl hb), fun x hx b hxb => hu.bytes b (.inr ?_)⟩
  obtain ⟨y, hy, rfl⟩ := Represents.mem_live hl hx
  have hfit := hfits y hy
  refine ⟨y, hy, ?_⟩
  simp only [Allocation.Holds, TakenBlock.allocation, TakenBlock.ptr] at hxb
  simp only [Block.Holds, TakenBlock.block]
  omega

theorem Inv.allocate_spec {size : Nat} (h : Inv p live) (hs : size + 32 < 2^64) :
    ∃ ptr q, allocate size p = some (ptr, q) ∧
      (ptr = 0 ∧ q = p ∨ ptr ≠ 0 ∧ Inv q (⟨ptr, max size 16⟩ :: live) ∧ Confined p q live) := by
  obtain ⟨free, taken, h, hl⟩ := h
  rcases h.allocate_spec hs with ⟨he, _⟩ |
    ⟨pre, b, post, rest, q, y, rfl, _, _, he, _, _, _, hpay, hr, hu⟩
  · exact ⟨0, p, he, .inl ⟨rfl, rfl⟩⟩
  · refine ⟨y.ptr, q, he, .inr ⟨?_, ⟨_, y :: taken, hr, ?_⟩,
      confined_of_untouched hu (fun z hz => (h.fits z hz).1) hl⟩⟩
    · simp only [TakenBlock.ptr]
      omega
    · rw [List.map_cons, TakenBlock.allocation, hpay]
      exact hl.cons _

theorem Inv.deallocate_spec (policy : CoalescePolicy) {ptr : Nat} (h : Inv p (x :: live))
    (howns : p.header.ownsPointer ptr = true) (hblock : freedBlock ptr p = freedBlock x.ptr p) :
    ∃ q, deallocate policy ptr p = some q ∧ Inv q live ∧ Confined p q live ∧
      q.header.usedSize + (freedBlock ptr p).2 = p.header.usedSize := by
  obtain ⟨free, taken, h, hl⟩ := h
  obtain ⟨y, rest, rfl, h, hl⟩ := h.front hl
  have hy : freedBlock ptr p = (y.start, y.size) :=
    hblock.trans (h.freedBlock_ptr List.mem_cons_self)
  obtain ⟨pre, post, previous, q, _, _, hq, hr, hu⟩ := h.deallocate_through policy howns hy
  refine ⟨q, hq, ⟨_, rest, hr, hl⟩,
    confined_of_untouched hu (fun z hz => (hr.fits z hz).1) hl, ?_⟩
  rw [hr.used, h.used, hy, List.map_cons, List.sum_cons]
  exact Nat.add_comm _ _

/-- The payload that was given back lies in a block of the free list. -/
theorem Inv.deallocate_frees (policy : CoalescePolicy) {ptr : Nat} (h : Inv p (x :: live))
    (howns : p.header.ownsPointer ptr = true) (hblock : freedBlock ptr p = freedBlock x.ptr p)
    (he : deallocate policy ptr p = some q) :
    ∃ nodes node, Path (read64 q.bytes) q.header.head nodes 0 ∧ node ∈ nodes ∧
      node ≤ x.ptr ∧ x.ptr + x.size ≤ node + getBlockSize q.bytes node := by
  obtain ⟨free, taken, h, hl⟩ := h
  obtain ⟨y, rest, rfl, h, hl⟩ := h.front hl
  have hy : freedBlock ptr p = (y.start, y.size) :=
    hblock.trans (h.freedBlock_ptr List.mem_cons_self)
  obtain ⟨pre, post, previous, q', _, _, hq, hr, _⟩ := h.deallocate_through policy howns hy
  rw [he] at hq
  cases hq
  obtain ⟨c, hc, hlo, hhi⟩ := liesWithin_releasedFree policy previous pre y.block post
  have hfit := (h.fits y List.mem_cons_self).1
  refine ⟨_, c.start, hr.freeList.path, List.mem_map_of_mem hc, ?_⟩
  rw [getBlockSize, hr.freeList.sizes c hc]
  simp only [TakenBlock.allocation, TakenBlock.ptr, TakenBlock.block] at hlo hhi ⊢
  omega

theorem Inv.ownsPointer (h : Inv p live) (hx : x ∈ live) : p.header.ownsPointer x.ptr = true := by
  obtain ⟨free, taken, h, hl⟩ := h
  obtain ⟨y, hy, rfl⟩ := Represents.mem_live hl hx
  have hin := h.payload_inside hy
  have hfit := (h.fits y hy).2.1
  refine (LogicalPageHeader.ownsPointer_eq_true h.bound).mpr ?_
  simp only [TakenBlock.allocation]
  omega

theorem Inv.used_eq_zero (h : Inv p live) : p.header.usedSize = 0 ↔ live = [] := by
  obtain ⟨free, taken, h, hl⟩ := h
  have hnil : live = [] ↔ taken = [] := by
    rw [← List.perm_nil, hl.symm.congr_left, List.perm_nil, List.map_eq_nil_iff]
  rw [h.used, hnil]
  constructor
  · intro h0
    rcases List.eq_nil_or_concat' taken with rfl | ⟨l, y, rfl⟩
    · rfl
    · have hfit := (h.fits y (by simp)).1
      simp only [List.map_append, List.sum_append, List.map_cons, List.sum_cons] at h0
      omega
  · rintro rfl
    rfl

theorem Inv.apart (h : Inv p live) : live.Pairwise Allocation.Apart := by
  obtain ⟨free, taken, h, hl⟩ := h
  refine (hl.pairwise_iff Allocation.Apart.symm).mp ?_
  have ha := List.pairwise_map.mp (List.pairwise_append.mp h.tiles.apart).2.1
  refine List.pairwise_map.mpr (ha.imp_of_mem fun {y z} hy hz hyz => ?_)
  have h1 := (h.fits y hy).1
  have h2 := (h.fits z hz).1
  simp only [Block.Apart, TakenBlock.block] at hyz
  simp only [Allocation.Apart, TakenBlock.allocation, TakenBlock.ptr]
  omega

theorem Inv.congr {h' : LogicalPageHeader} {m' : Mem} (h : Inv p live) (hs : p.header.SameStore h')
    (hm : ∀ b, p.header.logicalPageStartAddress ≤ b → b < p.header.bufferEnd →
      (∀ x ∈ live, ¬ x.Holds b) → m' b = p.bytes b) : Inv ⟨h', m'⟩ live := by
  obtain ⟨free, taken, h, hl⟩ := h
  refine ⟨free, taken, h.congr hs fun b hlo hhi hb => hm b hlo hhi ?_, hl⟩
  intro x hx
  obtain ⟨y, hy, rfl⟩ := Represents.mem_live hl hx
  exact hb y hy

theorem Inv.inside (h : Inv p live) (hx : x ∈ live) :
    0 < x.size ∧ p.header.logicalPageStartAddress ≤ x.ptr ∧ x.ptr + x.size ≤ p.header.bufferEnd := by
  obtain ⟨free, taken, h, hl⟩ := h
  obtain ⟨y, hy, rfl⟩ := Represents.mem_live hl hx
  have hin := h.payload_inside hy
  have hfit := (h.fits y hy).2.1
  simp only [TakenBlock.allocation]
  omega

theorem Inv.free_nodes (h : Inv p live) : ∃ nodes, Path (read64 p.bytes) p.header.head nodes 0 ∧
    0 ∉ nodes ∧ ∀ a ∈ nodes, p.header.logicalPageStartAddress ≤ a ∧ a + nodeSize ≤ p.header.bufferEnd ∧
      ∀ x ∈ live, a + nodeSize ≤ x.ptr ∨ x.ptr + x.size ≤ a := by
  obtain ⟨free, taken, h, hl⟩ := h
  refine ⟨free.map Block.start, h.freeList.path, ?_, fun a ha => ?_⟩
  · intro h0
    obtain ⟨b, hb, he⟩ := List.mem_map.mp h0
    exact h.placed.ne_zero b hb he
  · obtain ⟨b, hb, rfl⟩ := List.mem_map.mp ha
    have hin := h.free_inside hb
    have h16 := h.node_fits b hb
    refine ⟨hin.1, by change b.start + 16 ≤ _; omega, fun x hx => ?_⟩
    obtain ⟨y, hy, rfl⟩ := Represents.mem_live hl hx
    have hap := h.free_apart_taken hb hy
    have hfit := (h.fits y hy).1
    simp only [Block.Apart, TakenBlock.block] at hap
    simp only [TakenBlock.allocation, TakenBlock.ptr]
    change b.start + 16 ≤ _ ∨ _
    omega

theorem Inv.ptr_mod (h : Inv p live) (hx : x ∈ live) : x.ptr % 16 = 0 := by
  obtain ⟨free, taken, h, hl⟩ := h
  obtain ⟨y, hy, rfl⟩ := Represents.mem_live hl hx
  exact (h.fits y hy).2.2

end

section
variable {buffer size sizeClass : Nat} {m : Mem} {p : Page}

theorem create_inv (h : create buffer size sizeClass m = some p) (hb : buffer + size < 2^64) :
    Inv p [] ∧ p.header.nextLogicalPagePtr = 0 ∧ p.header.prevLogicalPagePtr = 0 ∧
      p.header.sizeClass = sizeClass ∧ p.header.logicalPageStartAddress = buffer ∧
      p.header.logicalPageSize = size ∧ ∀ b, b < buffer ∨ buffer + size ≤ b → p.bytes b = m b := by
  obtain ⟨hr, hh, hout⟩ := create_represents h hb
  refine ⟨⟨_, [], hr, .nil⟩, ?_, ?_, ?_, ?_, ?_, hout⟩ <;> rw [hh] <;> rfl

theorem create_aligned (h : (create buffer size sizeClass m).isSome) (buffer' : Nat) (m' : Mem)
    (hne : buffer' ≠ 0) (hlt : buffer' < 2^64) (hle : objectSize ≤ buffer')
    (ha : (buffer' - objectSize) % 4096 = 0) : (create buffer' size sizeClass m').isSome := by
  obtain ⟨hsize, h16, _, _⟩ := create_isSome_iff.mp h
  refine create_isSome_iff.mpr ⟨hsize, h16, hne, .inr ?_⟩
  exact (congrArg (· % 4096) (sub64_of_le hle hlt)).trans ha

theorem create_shift (h : (create buffer size sizeClass m).isSome) (k : Nat) (m' : Mem) :
    (create (buffer + k * 4096) size sizeClass m').isSome := by
  obtain ⟨hsize, h16, hne, ha⟩ := create_isSome_iff.mp h
  refine create_isSome_iff.mpr ⟨hsize, h16, by omega, ?_⟩
  unfold sub64 at ha ⊢
  omega

end

/-- The any-size page keeps the promises a segment relies on, whether it coalesces or not. -/
def laws (policy : CoalescePolicy) : PageLaws (pageType policy) where
  Inv := Inv
  granted _ size := max size 16
  block := freedBlock
  freeSize _ := getBlockSize
  objectSize_eq := rfl
  fixed h := Bool.noConfusion h
  perm := Inv.perm
  congr := Inv.congr
  create_inv := create_inv
  create_aligned := create_aligned
  create_shift h _ := create_shift h
  create_class _ h := Bool.noConfusion h
  allocate_spec := Inv.allocate_spec
  deallocate_spec := Inv.deallocate_spec policy
  deallocate_frees := Inv.deallocate_frees policy
  inside := Inv.inside
  apart := Inv.apart
  used_eq_zero := Inv.used_eq_zero
  free_nodes := Inv.free_nodes
  aligned h _ hx := h.ptr_mod hx

theorem totalAvailableMemory_eq {m : Mem} {free : List Block} {fuel iterator : Nat}
    (hf : FreeList m iterator free) (hne : ∀ b ∈ free, b.start ≠ 0) (hfuel : free.length < fuel)
    (hsum : (free.map Block.size).sum < 2^64) :
    totalAvailableMemory m fuel iterator = some (free.map Block.size).sum := by
  induction free generalizing fuel iterator with
  | nil =>
    obtain ⟨fuel, rfl⟩ := Nat.exists_eq_succ_of_ne_zero (by omega : fuel ≠ 0)
    obtain rfl := path_nil.mp hf.path
    rw [totalAvailableMemory, if_pos rfl]
    rfl
  | cons b free ih =>
    obtain ⟨fuel, rfl⟩ := Nat.exists_eq_succ_of_ne_zero (by omega : fuel ≠ 0)
    rw [List.length_cons] at hfuel
    rw [List.map_cons, List.sum_cons] at hsum ⊢
    obtain ⟨rfl, hpath⟩ := hf.path
    have hrest : FreeList m (getNextPointer m b.start) free :=
      ⟨hpath, fun c hc => hf.sizes c (List.mem_cons_of_mem _ hc)⟩
    rw [totalAvailableMemory, if_neg (hne b List.mem_cons_self),
      ih hrest (fun c hc => hne c (List.mem_cons_of_mem _ hc)) (by omega) (by omega),
      Option.map_some, getBlockSize, hf.sizes b List.mem_cons_self, add64_of_lt hsum]

theorem Represents.isSane {p : Page} {free : List Block} {taken : List TakenBlock}
    (h : Represents p free taken) : isSane p = some true := by
  have hsize := h.size_eq
  have hbound := h.bound
  simp only [LogicalPageHeader.bufferEnd] at hbound
  rw [LogicalPageAnySize.isSane,
    totalAvailableMemory_eq h.freeList h.placed.ne_zero h.length_lt (by omega), Option.map_some,
    add64_of_lt (by omega), hsize, beq_self_eq_true]

structure State where
  page : Page
  live : List Allocation

inductive Operation where
  | allocate (size : Nat)
  | deallocate (x : Allocation)
  /-- A client writes a byte of its own. -/
  | store (address : Nat) (value : UInt8)

/-- What a caller may do: a segment caps the size of a request, and clients return
and write what they hold. -/
def Allowed (s : State) : Operation → Prop
  | .allocate size => size ≤ s.page.header.logicalPageSize
  | .deallocate x => x ∈ s.live
  | .store address _ => ∃ x ∈ s.live, x.Holds address

def perform (policy : CoalescePolicy) (s : State) : Operation → Option State
  | .allocate size => (allocate size s.page).map fun (ptr, p) =>
      ⟨p, if ptr = 0 then s.live else ⟨ptr, max size 16⟩ :: s.live⟩
  | .deallocate x => (deallocate policy x.ptr s.page).map fun p => ⟨p, s.live.erase x⟩
  | .store address value =>
      some { s with page.bytes := Function.update s.page.bytes address value }

/-- The states reached from a page created over a real buffer. -/
inductive Reachable (policy : CoalescePolicy) : State → Prop
  | create {buffer size sizeClass : Nat} {m : Mem} {p : Page} (hb : buffer + size < 2^64)
      (h : create buffer size sizeClass m = some p) : Reachable policy ⟨p, []⟩
  | step {s s' : State} {op : Operation} (hs : Reachable policy s) (ha : Allowed s op)
      (hp : perform policy s op = some s') : Reachable policy s'

/-- Every page object has room in front of it, so no size below the page size wraps. -/
def Sound (s : State) : Prop := Inv s.page s.live ∧ 64 ≤ s.page.header.logicalPageStartAddress

theorem Sound.request_lt {s : State} {size : Nat} (h : Sound s) (hs : size ≤ s.page.header.logicalPageSize) :
    size + 32 < 2^64 := by
  obtain ⟨⟨_, _, hr, _⟩, hstart⟩ := h
  have hbound := hr.bound
  simp only [LogicalPageHeader.bufferEnd] at hbound
  omega

theorem Sound.perform {s : State} (policy : CoalescePolicy) (h : Sound s) {op : Operation}
    (ha : Allowed s op) : ∃ s', perform policy s op = some s' ∧ Sound s' := by
  have hrequest : ∀ size ≤ s.page.header.logicalPageSize, size + 32 < 2^64 := fun _ => h.request_lt
  obtain ⟨hi, hstart⟩ := h
  cases op with
  | allocate size =>
    obtain ⟨ptr, q, he, hq⟩ := hi.allocate_spec (hrequest size ha)
    refine ⟨_, by rw [LogicalPageAnySize.perform, he]; rfl, ?_⟩
    rcases hq with ⟨rfl, rfl⟩ | ⟨hne, hq, hc⟩
    · exact ⟨hi, hstart⟩
    · refine ⟨?_, by rw [hc.frame.start]; exact hstart⟩
      simp only [if_neg hne]
      exact hq
  | deallocate x =>
    obtain ⟨q, he, hq, hc, _⟩ :=
      (hi.perm (List.perm_cons_erase ha)).deallocate_spec policy (hi.ownsPointer ha) rfl
    refine ⟨_, by rw [LogicalPageAnySize.perform, he]; rfl, hq, ?_⟩
    rw [hc.frame.start]
    exact hstart
  | store address value =>
    obtain ⟨x, hx, hxb⟩ := ha
    refine ⟨_, rfl, (laws policy).congr hi (.refl _) fun b _ _ hb => ?_, hstart⟩
    refine Function.update_of_ne ?_ _ _
    rintro rfl
    exact hb x hx hxb

theorem Reachable.sound {policy : CoalescePolicy} {s : State} (h : Reachable policy s) :
    Sound s := by
  induction h with
  | @create buffer size sizeClass m p hb h =>
    obtain ⟨hr, hh, _⟩ := create_represents h hb
    obtain ⟨_, _, hne, ha⟩ := create_isSome_iff.mp (Option.isSome_iff_exists.mpr ⟨p, h⟩)
    refine ⟨⟨_, [], hr, .nil⟩, ?_⟩
    rw [hh]
    change 64 ≤ buffer
    unfold sub64 at ha
    simp only [objectSize] at ha
    omega
  | step _ ha hp ih =>
    obtain ⟨s', hs', hsound⟩ := ih.perform policy ha
    rw [hs'] at hp
    exact Option.some.inj hp ▸ hsound

def freeBlock (m : Mem) (node : Nat) : Block := ⟨node, getBlockSize m node⟩

/-- The block behind a live pointer, as the header in front of the payload stores it. -/
def liveBlock (m : Mem) (ptr : Nat) : Block :=
  ⟨ptr - 16 - getPaddingSize m (ptr - 16), getBlockSize m (ptr - 16)⟩

theorem Represents.liveBlock_eq {p : Page} {free : List Block} {taken : List TakenBlock}
    (h : Represents p free taken) {y : TakenBlock} (hy : y ∈ taken) :
    liveBlock p.bytes y.ptr = y.block := by
  obtain ⟨hpad, hsize⟩ := h.stored y hy
  have hheader : y.ptr - 16 = y.header := Nat.add_sub_cancel _ _
  rw [liveBlock, hheader, hpad, hsize, TakenBlock.header, Nat.add_sub_cancel]
  rfl

/-- In every run the free blocks and the blocks of the live allocations tile the
buffer, the used size adds up the latter, and no operation gets stuck. -/
theorem reachable_tiles {policy : CoalescePolicy} {s : State} (h : Reachable policy s) :
    (∃ nodes : List Nat, Path (getNextPointer s.page.bytes) s.page.header.head nodes 0 ∧
      nodes.Nodup ∧ 0 ∉ nodes ∧
      Tiles (nodes.map (freeBlock s.page.bytes) ++
          s.live.map fun x => liveBlock s.page.bytes x.ptr)
        s.page.header.logicalPageStartAddress s.page.header.bufferEnd) ∧
    s.page.header.usedSize =
      (s.live.map fun x => (liveBlock s.page.bytes x.ptr).size).sum ∧
    isSane s.page = some true ∧
    ∀ op, Allowed s op → (perform policy s op).isSome := by
  obtain ⟨⟨free, taken, hr, hl⟩, hstart⟩ := h.sound
  have hfree : (free.map Block.start).map (freeBlock s.page.bytes) = free := by
    rw [List.map_map]
    refine (List.map_congr_left fun b hb => ?_).trans (List.map_id free)
    rw [Function.comp_apply, freeBlock, getBlockSize, hr.freeList.sizes b hb]
    rfl
  have htaken : (taken.map TakenBlock.allocation).map (fun x => liveBlock s.page.bytes x.ptr) =
      taken.map TakenBlock.block := by
    rw [List.map_map]
    exact List.map_congr_left fun y hy => hr.liveBlock_eq hy
  have hlive := hl.map fun x => liveBlock s.page.bytes x.ptr
  rw [htaken] at hlive
  refine ⟨⟨free.map Block.start, hr.freeList.path, ?_, ?_, ?_⟩, ?_, hr.isSane, ?_⟩
  · refine List.pairwise_map.mpr (hr.placed.apart.imp fun ha he => ?_)
    simp only [NodesApart] at ha
    omega
  · intro h0
    obtain ⟨b, hb, he⟩ := List.mem_map.mp h0
    exact hr.placed.ne_zero b hb he
  · rw [hfree]
    exact hr.tiles.perm (hlive.append_left free)
  · have hsum := (hlive.map Block.size).sum_eq
    rw [List.map_map, List.map_map] at hsum
    exact hr.used.trans hsum
  · intro op ha
    obtain ⟨s', hs', _⟩ := Sound.perform policy ⟨⟨free, taken, hr, hl⟩, hstart⟩ ha
    rw [hs']
    rfl

theorem exists_reachable_of_two : ∃ s : State, Reachable .coalesce s ∧
    s.live = [⟨4240, 200⟩, ⟨4112, 100⟩] ∧ s.page.header.usedSize = 344 := by
  have hrun : ((create 4096 4032 0 fun _ => 0).bind fun p =>
      (perform .coalesce ⟨p, []⟩ (.allocate 100)).bind fun s =>
      (perform .coalesce s (.allocate 200)).bind fun s' =>
      some (p.header.logicalPageSize, s.page.header.logicalPageSize, s'.live,
        s'.page.header.usedSize)) = some (4032, 4032, [⟨4240, 200⟩, ⟨4112, 100⟩], 344) := by
    decide +kernel
  obtain ⟨p, hp, hrun⟩ := Option.bind_eq_some_iff.mp hrun
  obtain ⟨s, hs, hrun⟩ := Option.bind_eq_some_iff.mp hrun
  obtain ⟨s', hs', hrun⟩ := Option.bind_eq_some_iff.mp hrun
  simp only [Option.some.injEq, Prod.mk.injEq] at hrun
  obtain ⟨h0, h1, hlive, hused⟩ := hrun
  have ha : Allowed ⟨p, []⟩ (.allocate 100) := by
    rw [Allowed, h0]
    decide
  have ha' : Allowed s (.allocate 200) := by
    rw [Allowed, h1]
    decide
  exact ⟨s', ((Reachable.create (by decide) hp).step ha hs).step ha' hs', hlive, hused⟩

theorem reachable_tiles_of_two : ∃ s : State, s.live = [⟨4240, 200⟩, ⟨4112, 100⟩] ∧
    s.page.header.usedSize = 344 ∧ isSane s.page = some true := by
  obtain ⟨s, hr, hlive, hused⟩ := exists_reachable_of_two
  exact ⟨s, hlive, hused, (reachable_tiles hr).2.2.1⟩

end Metamalloc.Pages.LogicalPageAnySize
