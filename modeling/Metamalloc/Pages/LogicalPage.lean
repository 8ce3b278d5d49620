import Mathlib.Data.List.Perm.Basic
import Metamalloc.Pages.LogicalPageHeader

/-! The page of one size class: a last-in first-out free list of equal chunks. -/
namespace Metamalloc.Pages.LogicalPage
open Library.Word64 Library.ByteMemory Library.LinkedList

/-- `sizeof(LogicalPage)` in a build without `UNIT_TEST`. -/
def objectSize : Nat := 64

def push (node : Nat) (p : Page) : Page :=
  { header := { p.header with head := node }, bytes := write64 p.bytes node p.header.head }

def pop (p : Page) : Nat × Page :=
  if p.header.head = 0 then (0, p)
  else
    let top := p.header.head
    (top, { p with header := { p.header with head := read64 p.bytes top } })

def grow (buffer bufferSize : Nat) (p : Page) : Page :=
  (List.range (bufferSize / p.header.sizeClass)).foldl
    (fun q i => push (buffer + i * p.header.sizeClass) q) p

/-- The address a caller places the page object at, one object before the buffer, also counts. -/
def create (buffer bufferSize sizeClass : Nat) (m : Mem) : Option Page :=
  if buffer = 0 ∨ bufferSize < sizeClass ∨ sizeClass < 8 then none
  else if !isAddressPageAllocationGranularityAligned buffer &&
      !isAddressPageAllocationGranularityAligned (sub64 buffer objectSize) then none
  else some (grow buffer bufferSize ⟨.ofBuffer buffer bufferSize sizeClass, m⟩)

/-- The size is ignored: every chunk has the size class. -/
def allocate (_size : Nat) (p : Page) : Nat × Page :=
  let (node, p) := pop p
  if node = 0 then (0, p)
  else (node, { p with header.usedSize := add64 p.header.usedSize p.header.sizeClass })

def deallocate (ptr : Nat) (p : Page) : Page :=
  if !p.header.ownsPointer ptr then p
  else push ptr { p with header.usedSize := sub64 p.header.usedSize p.header.sizeClass }

def getUsableSize (_ptr : Nat) (p : Page) : Nat := p.header.sizeClass

/-- The chunk a deallocation puts back is taken to start at the pointer. -/
def freedBlock (ptr : Nat) (p : Page) : Nat × Nat := (ptr, p.header.sizeClass)

def pageType : LogicalPageType where
  objectSize := objectSize
  nodeSize := 8
  supportsAnySize := false
  create := create
  allocate size p := some (allocate size p)
  deallocate ptr p := some (deallocate ptr p)
  getUsableSize := getUsableSize

def chunkCount (h : LogicalPageHeader) : Nat := h.logicalPageSize / h.sizeClass

def chunks (h : LogicalPageHeader) : List Nat :=
  (List.range (chunkCount h)).map fun i => h.logicalPageStartAddress + i * h.sizeClass

theorem chunks_congr {h h' : LogicalPageHeader} (hs : h'.logicalPageStartAddress = h.logicalPageStartAddress)
    (hn : h'.logicalPageSize = h.logicalPageSize) (hc : h'.sizeClass = h.sizeClass) :
    chunks h' = chunks h := by
  simp only [chunks, chunkCount, hs, hn, hc]

theorem mem_chunks {h : LogicalPageHeader} {a : Nat} :
    a ∈ chunks h ↔ ∃ i < chunkCount h, a = h.logicalPageStartAddress + i * h.sizeClass := by
  simp [chunks, eq_comm]

theorem chunk_inside {h : LogicalPageHeader} {a : Nat} (ha : a ∈ chunks h) :
    h.logicalPageStartAddress ≤ a ∧ a + h.sizeClass ≤ h.bufferEnd := by
  obtain ⟨i, hi, rfl⟩ := mem_chunks.mp ha
  have hm : (i + 1) * h.sizeClass ≤ h.logicalPageSize :=
    (Nat.mul_le_mul_right _ hi).trans (Nat.div_mul_le_self _ _)
  rw [Nat.succ_mul] at hm
  simp only [LogicalPageHeader.bufferEnd]
  omega

theorem chunks_apart {h : LogicalPageHeader} {a b : Nat} (ha : a ∈ chunks h) (hb : b ∈ chunks h)
    (hne : a ≠ b) : a + h.sizeClass ≤ b ∨ b + h.sizeClass ≤ a := by
  obtain ⟨i, _, rfl⟩ := mem_chunks.mp ha
  obtain ⟨j, _, rfl⟩ := mem_chunks.mp hb
  rcases Nat.lt_trichotomy i j with hij | rfl | hij
  · have := Nat.mul_le_mul_right h.sizeClass (Nat.succ_le_of_lt hij)
    rw [Nat.succ_mul] at this
    omega
  · exact absurd rfl hne
  · have := Nat.mul_le_mul_right h.sizeClass (Nat.succ_le_of_lt hij)
    rw [Nat.succ_mul] at this
    omega

theorem chunks_nodup {h : LogicalPageHeader} (hc : 0 < h.sizeClass) : (chunks h).Nodup := by
  refine List.Nodup.map ?_ List.nodup_range
  intro i j hij
  exact Nat.eq_of_mul_eq_mul_right hc (Nat.add_left_cancel hij)

/-- The free list and the live pointers share out the chunks of the page. -/
structure Inv (p : Page) (live : List Allocation) : Prop where
  partition : ∃ nodes, Path (read64 p.bytes) p.header.head nodes 0 ∧
    (nodes ++ live.map Allocation.ptr).Perm (chunks p.header)
  used : p.header.usedSize = p.header.sizeClass * live.length
  size : ∀ x ∈ live, x.size = p.header.sizeClass
  eight_le : 8 ≤ p.header.sizeClass
  start_pos : 0 < p.header.logicalPageStartAddress
  bound : p.header.bufferEnd < 2^64

section
variable {p : Page} {live : List Allocation} {x : Allocation}

theorem Inv.mem_chunks (h : Inv p live) (hx : x ∈ live) : x.ptr ∈ chunks p.header := by
  obtain ⟨nodes, _, hp⟩ := h.partition
  exact hp.subset (List.mem_append_right _ (List.mem_map_of_mem hx))

theorem chunk_pos (hs : 0 < p.header.logicalPageStartAddress) {a : Nat}
    (ha : a ∈ chunks p.header) : a ≠ 0 := by
  have := (chunk_inside ha).1
  omega

theorem Inv.nodup (h : Inv p live) {nodes : List Nat}
    (hp : (nodes ++ live.map Allocation.ptr).Perm (chunks p.header)) :
    (nodes ++ live.map Allocation.ptr).Nodup :=
  hp.nodup_iff.mpr (chunks_nodup (by have := h.eight_le; omega))

theorem Inv.live_bytes_le (h : Inv p live) :
    p.header.sizeClass * live.length ≤ p.header.logicalPageSize := by
  obtain ⟨nodes, _, hp⟩ := h.partition
  have hl := hp.length_eq
  simp only [List.length_append, List.length_map, chunks, List.length_range] at hl
  calc p.header.sizeClass * live.length ≤ p.header.sizeClass * chunkCount p.header :=
        Nat.mul_le_mul_left _ (by omega)
    _ ≤ p.header.logicalPageSize := Nat.mul_div_le _ _

end

private theorem path_write {m : Mem} {head node c : Nat} {nodes : List Nat}
    (hpath : Path (read64 m) head nodes 0) (hhead : head < 2^64) (hc : 8 ≤ c)
    (ha : ∀ a ∈ nodes, a + c ≤ node ∨ node + c ≤ a) :
    Path (read64 (write64 m node head)) node (node :: nodes) 0 := by
  refine ⟨rfl, ?_⟩
  rw [read64_write64_same hhead]
  refine hpath.congr fun a hm => read64_write64_of_disjoint ?_
  have := ha a hm
  omega

private theorem path_head_lt {m : Mem} {head : Nat} {nodes : List Nat} {h : LogicalPageHeader}
    (hb : h.bufferEnd < 2^64) (hpath : Path (read64 m) head nodes 0)
    (hin : ∀ a ∈ nodes, a ∈ chunks h) : head < 2^64 := by
  cases nodes with
  | nil =>
    rw [path_nil.mp hpath]
    norm_num
  | cons a nodes =>
    obtain ⟨rfl, _⟩ := hpath
    have := chunk_inside (hin _ List.mem_cons_self)
    omega

private theorem foldl_push_header (c : Nat) (buffer : Nat) (p : Page) (n : Nat) :
    ∃ head, ((List.range n).foldl (fun q i => push (buffer + i * c) q) p).header =
      { p.header with head := head } := by
  induction n with
  | zero => exact ⟨p.header.head, rfl⟩
  | succ n ih =>
    obtain ⟨head, ih⟩ := ih
    simp only [List.range_succ, List.foldl_append, List.foldl_cons, List.foldl_nil]
    exact ⟨buffer + n * c, by rw [push, ih]⟩

private theorem foldl_push_path (h : LogicalPageHeader) (m : Mem) (hc : 8 ≤ h.sizeClass)
    (hb : h.bufferEnd < 2^64) (n : Nat) (hn : n ≤ chunkCount h) :
    let q := (List.range n).foldl
      (fun q i => push (h.logicalPageStartAddress + i * h.sizeClass) q) ⟨{ h with head := 0 }, m⟩
    Path (read64 q.bytes) q.header.head
        ((List.range n).map fun i => h.logicalPageStartAddress + i * h.sizeClass).reverse 0 ∧
      ∀ b, b < h.logicalPageStartAddress ∨ h.bufferEnd ≤ b → q.bytes b = m b := by
  induction n with
  | zero => exact ⟨rfl, fun _ _ => rfl⟩
  | succ n ih =>
    obtain ⟨hpath, hout⟩ := ih (by omega)
    simp only [List.range_succ, List.foldl_append, List.foldl_cons, List.foldl_nil, List.map_append,
      List.map_cons, List.map_nil, List.reverse_append, List.reverse_cons, List.reverse_nil,
      List.nil_append, List.singleton_append]
    have hnew : h.logicalPageStartAddress + n * h.sizeClass ∈ chunks h :=
      LogicalPage.mem_chunks.mpr ⟨n, by omega, rfl⟩
    have hin : ∀ a ∈ ((List.range n).map fun i => h.logicalPageStartAddress + i * h.sizeClass).reverse,
        a ∈ chunks h := by
      intro a ha
      obtain ⟨i, hi, rfl⟩ : ∃ i < n, h.logicalPageStartAddress + i * h.sizeClass = a := by
        simpa using ha
      exact LogicalPage.mem_chunks.mpr ⟨i, by omega, rfl⟩
    refine ⟨path_write hpath (path_head_lt hb hpath hin) hc fun a ha => ?_, fun b hb' => ?_⟩
    · refine chunks_apart (hin a ha) hnew ?_
      obtain ⟨i, hi, rfl⟩ : ∃ i < n, h.logicalPageStartAddress + i * h.sizeClass = a := by
        simpa using ha
      intro he
      have := Nat.eq_of_mul_eq_mul_right (by omega : 0 < h.sizeClass) (Nat.add_left_cancel he)
      omega
    · rw [← hout b hb']
      have := chunk_inside hnew
      exact write64_apply (by omega)

theorem create_eq_some {buffer size sizeClass : Nat} {m : Mem} {p : Page}
    (h : create buffer size sizeClass m = some p) :
    buffer ≠ 0 ∧ sizeClass ≤ size ∧ 8 ≤ sizeClass ∧
      p = grow buffer size ⟨.ofBuffer buffer size sizeClass, m⟩ := by
  unfold create at h
  split at h
  · cases h
  · rename_i hc
    split at h
    · cases h
    · refine ⟨fun e => hc (.inl e), by omega, by omega, ?_⟩
      simpa using h.symm

theorem create_isSome_iff {buffer size sizeClass : Nat} {m : Mem} :
    (create buffer size sizeClass m).isSome ↔ buffer ≠ 0 ∧ sizeClass ≤ size ∧ 8 ≤ sizeClass ∧
      (buffer % 4096 = 0 ∨ sub64 buffer objectSize % 4096 = 0) := by
  have ha := isAddressPageAllocationGranularityAligned_iff buffer
  have hb := isAddressPageAllocationGranularityAligned_iff (sub64 buffer objectSize)
  unfold create
  split
  · simp only [Option.isSome_none, Bool.false_eq_true, false_iff]
    omega
  · rename_i hc
    split
    · rename_i hn
      simp only [Bool.and_eq_true, Bool.not_eq_true', Bool.eq_false_iff, ne_eq, ha, hb] at hn
      simp only [Option.isSome_none, Bool.false_eq_true, false_iff]
      omega
    · rename_i hn
      simp only [Bool.and_eq_true, Bool.not_eq_true', Bool.eq_false_iff, ne_eq, ha, hb] at hn
      simp only [Option.isSome_some, true_iff]
      omega

theorem create_inv {buffer size sizeClass : Nat} {m : Mem} {p : Page}
    (h : create buffer size sizeClass m = some p) (hb : buffer + size < 2^64) :
    Inv p [] ∧ p.header.nextLogicalPagePtr = 0 ∧ p.header.prevLogicalPagePtr = 0 ∧
      p.header.sizeClass = sizeClass ∧ p.header.logicalPageStartAddress = buffer ∧
      p.header.logicalPageSize = size ∧ ∀ b, b < buffer ∨ buffer + size ≤ b → p.bytes b = m b := by
  obtain ⟨hne, hle, hc, rfl⟩ := create_eq_some h
  obtain ⟨head, hhead⟩ := foldl_push_header sizeClass buffer
    ⟨.ofBuffer buffer size sizeClass, m⟩ (size / sizeClass)
  obtain ⟨hpath, hout⟩ := foldl_push_path (.ofBuffer buffer size sizeClass) m hc hb
    (size / sizeClass) le_rfl
  change (grow buffer size ⟨.ofBuffer buffer size sizeClass, m⟩).header = _ at hhead
  change Path (read64 (grow buffer size ⟨.ofBuffer buffer size sizeClass, m⟩).bytes)
    (grow buffer size ⟨.ofBuffer buffer size sizeClass, m⟩).header.head _ 0 at hpath
  refine ⟨⟨⟨_, hpath, ?_⟩, ?_, by simp, ?_, ?_, ?_⟩, ?_, ?_, ?_, ?_, ?_, hout⟩
  · rw [hhead, List.map_nil, List.append_nil]
    exact List.reverse_perm _
  all_goals rw [hhead]
  · rfl
  · exact hc
  · exact Nat.pos_of_ne_zero hne
  · exact hb
  all_goals rfl

section
variable {p : Page} {live : List Allocation} {x : Allocation}

theorem Inv.perm {live' : List Allocation} (h : Inv p live) (hp : live.Perm live') :
    Inv p live' := by
  obtain ⟨nodes, hpath, hn⟩ := h.partition
  refine ⟨⟨nodes, hpath, ?_⟩, ?_, fun x hx => h.size x (hp.symm.subset hx), h.eight_le,
    h.start_pos, h.bound⟩
  · exact ((hp.symm.map Allocation.ptr).append_left nodes).trans hn
  · rw [h.used, hp.length_eq]

theorem Inv.node_apart (h : Inv p live) {nodes : List Nat}
    (hp : (nodes ++ live.map Allocation.ptr).Perm (chunks p.header)) {a : Nat} (ha : a ∈ nodes)
    (hx : x ∈ live) : a + p.header.sizeClass ≤ x.ptr ∨ x.ptr + p.header.sizeClass ≤ a := by
  refine chunks_apart (hp.subset (List.mem_append_left _ ha)) (h.mem_chunks hx) ?_
  exact (List.nodup_append.mp (h.nodup hp)).2.2 a ha x.ptr (List.mem_map_of_mem hx)

theorem Inv.congr {h' : LogicalPageHeader} {m' : Mem} (h : Inv p live) (hs : p.header.SameStore h')
    (hm : ∀ b, p.header.logicalPageStartAddress ≤ b → b < p.header.bufferEnd →
      (∀ x ∈ live, ¬ x.Holds b) → m' b = p.bytes b) : Inv ⟨h', m'⟩ live := by
  obtain ⟨hhead, hclass, hused, hstart, hsize⟩ := hs
  obtain ⟨nodes, hpath, hn⟩ := h.partition
  have h8 := h.eight_le
  refine ⟨⟨nodes, ?_, ?_⟩, ?_, ?_, ?_, ?_, ?_⟩
  · rw [hhead]
    refine hpath.congr fun a ha => AgreeOn.read64_eq fun b hlo hhi => hm b ?_ ?_ ?_
    · have := (chunk_inside (hn.subset (List.mem_append_left _ ha))).1
      omega
    · have := (chunk_inside (hn.subset (List.mem_append_left _ ha))).2
      omega
    · rintro x hx ⟨hlo', hhi'⟩
      have ha' := h.node_apart hn ha hx
      rw [h.size x hx] at hhi'
      omega
  · rw [chunks_congr hstart hsize hclass]
    exact hn
  · rw [hused, hclass, h.used]
  · intro x hx
    rw [hclass, h.size x hx]
  · rwa [hclass]
  · rw [hstart]
    exact h.start_pos
  · rw [LogicalPageHeader.bufferEnd, hstart, hsize]
    exact h.bound

theorem Inv.inside (h : Inv p live) (hx : x ∈ live) :
    0 < x.size ∧ p.header.logicalPageStartAddress ≤ x.ptr ∧
      x.ptr + x.size ≤ p.header.bufferEnd := by
  have hc := chunk_inside (h.mem_chunks hx)
  have h8 := h.eight_le
  rw [h.size x hx]
  omega

theorem Inv.apart (h : Inv p live) : live.Pairwise Allocation.Apart := by
  obtain ⟨nodes, _, hn⟩ := h.partition
  have hd : live.Pairwise fun x y => x.ptr ≠ y.ptr :=
    List.pairwise_map.mp (List.nodup_append.mp (h.nodup hn)).2.1
  refine hd.imp_of_mem fun {x y} hx hy hne => ?_
  have := chunks_apart (h.mem_chunks hx) (h.mem_chunks hy) hne
  rw [Allocation.Apart, h.size x hx, h.size y hy]
  exact this

theorem Inv.used_eq_zero (h : Inv p live) : p.header.usedSize = 0 ↔ live = [] := by
  have h8 := h.eight_le
  rw [h.used, Nat.mul_eq_zero, List.length_eq_zero_iff]
  exact or_iff_right (by omega)

theorem allocate_of_ne {size : Nat} (h0 : p.header.head ≠ 0) :
    allocate size p = (p.header.head,
      { p with
        header := { p.header with
          head := read64 p.bytes p.header.head
          usedSize := add64 p.header.usedSize p.header.sizeClass } }) := by
  simp [allocate, pop, h0]

theorem Inv.allocate_spec (h : Inv p live) (size : Nat) :
    ∃ ptr p', allocate size p = (ptr, p') ∧
      (ptr = 0 ∧ p' = p ∨
        ptr ≠ 0 ∧ Inv p' (⟨ptr, p.header.sizeClass⟩ :: live) ∧ Confined p p' live) := by
  obtain ⟨nodes, hpath, hn⟩ := h.partition
  by_cases h0 : p.header.head = 0
  · exact ⟨0, p, by simp [allocate, pop, h0], .inl ⟨rfl, rfl⟩⟩
  · obtain ⟨rest, rfl⟩ := hpath.ne_nil h0
    refine ⟨p.header.head, _, allocate_of_ne h0, .inr ⟨h0, ?_, ?_⟩⟩
    · have hfit : p.header.sizeClass * (live.length + 1) ≤ p.header.logicalPageSize := by
        have hl := hn.length_eq
        simp only [List.length_append, List.length_cons, List.length_map, chunks,
          List.length_range] at hl
        have hle : live.length + 1 ≤ p.header.logicalPageSize / p.header.sizeClass := by
          change _ = p.header.logicalPageSize / p.header.sizeClass at hl
          omega
        exact (Nat.mul_le_mul_left _ hle).trans (Nat.mul_div_le _ _)
      have hb : p.header.logicalPageStartAddress + p.header.logicalPageSize < 2^64 := h.bound
      have hused : add64 p.header.usedSize p.header.sizeClass =
          p.header.sizeClass * (live.length + 1) := by
        rw [Nat.mul_succ] at hfit ⊢
        rw [h.used]
        exact add64_of_lt (by omega)
      refine ⟨⟨rest, hpath.2, ?_⟩, ?_, ?_, h.eight_le, h.start_pos, ?_⟩
      · rw [List.map_cons]
        refine (List.perm_middle.trans hn).trans (.of_eq (Eq.symm ?_))
        apply chunks_congr <;> rfl
      · rw [List.length_cons, ← hused]
      · intro x hx
        rcases List.mem_cons.mp hx with rfl | hx
        · rfl
        · exact h.size x hx
      · rw [LogicalPageHeader.bufferEnd]
        exact hb
    · exact ⟨⟨rfl, rfl, rfl, rfl, rfl, rfl⟩, fun _ _ => rfl, fun _ _ _ _ => rfl⟩

theorem Inv.deallocate_spec (h : Inv p (x :: live)) :
    Inv (deallocate x.ptr p) live ∧ Confined p (deallocate x.ptr p) live := by
  obtain ⟨nodes, hpath, hn⟩ := h.partition
  have hx := h.mem_chunks List.mem_cons_self
  have hin := chunk_inside hx
  have h8 := h.eight_le
  have hb := h.bound
  have howns : p.header.ownsPointer x.ptr = true :=
    (LogicalPageHeader.ownsPointer_eq_true hb).mpr ⟨hin.1, by omega⟩
  have hfit := h.live_bytes_le
  simp only [LogicalPageHeader.bufferEnd] at hb
  have hused : sub64 p.header.usedSize p.header.sizeClass = p.header.sizeClass * live.length := by
    rw [List.length_cons, Nat.mul_succ] at hfit
    rw [h.used, List.length_cons, Nat.mul_succ, sub64_of_le (by omega) (by omega)]
    omega
  have hnodes : ∀ a ∈ nodes, a ∈ chunks p.header := fun a ha => hn.subset (List.mem_append_left _ ha)
  simp only [deallocate, howns, Bool.not_true, Bool.false_eq_true, ↓reduceIte]
  refine ⟨⟨⟨x.ptr :: nodes, ?_, ?_⟩, hused, ?_, h8, h.start_pos, h.bound⟩, ?_, ?_, ?_⟩
  · exact path_write hpath (path_head_lt h.bound hpath hnodes) h8
      fun a ha => h.node_apart hn ha List.mem_cons_self
  · refine (List.perm_middle.symm.trans hn).trans (.of_eq (Eq.symm ?_))
    apply chunks_congr <;> rfl
  · exact fun y hy => h.size y (List.mem_cons_of_mem _ hy)
  · exact ⟨rfl, rfl, rfl, rfl, rfl, rfl⟩
  · intro b hb'
    simp only [LogicalPageHeader.bufferEnd] at hb' hin
    exact write64_apply (by omega)
  · rintro y hy b ⟨hlo, hhi⟩
    have ha := (List.pairwise_cons.mp h.apart).1 y hy
    rw [Allocation.Apart, h.size x List.mem_cons_self] at ha
    exact write64_apply (by omega)

/-- The chunk that was given back is a node of the free list. -/
theorem Inv.deallocate_frees (h : Inv p (x :: live)) :
    ∃ nodes, Path (read64 (deallocate x.ptr p).bytes) (deallocate x.ptr p).header.head nodes 0 ∧ x.ptr ∈ nodes := by
  obtain ⟨hinv, hconf⟩ := h.deallocate_spec
  obtain ⟨nodes, hpath, hn⟩ := hinv.partition
  have hchunks : chunks (deallocate x.ptr p).header = chunks p.header :=
    chunks_congr hconf.frame.start hconf.frame.size hconf.frame.sizeClass
  have hx : x.ptr ∈ nodes ++ live.map Allocation.ptr := by
    rw [hn.mem_iff, hchunks]
    exact h.mem_chunks List.mem_cons_self
  refine ⟨nodes, hpath, (List.mem_append.mp hx).resolve_right fun hlive => ?_⟩
  obtain ⟨old, _, hold⟩ := h.partition
  have hnodup := (List.nodup_append.mp (h.nodup hold)).2.1
  exact (List.nodup_cons.mp hnodup).1 hlive

end

/-- The fixed-size page keeps the promises a segment relies on. -/
def laws : PageLaws pageType where
  Inv := Inv
  granted sizeClass _ := sizeClass
  block := freedBlock
  freeSize sizeClass _ _ := sizeClass
  objectSize_eq := rfl
  fixed _ := ⟨fun _ _ => rfl, fun h hx => h.size _ hx⟩
  perm := Inv.perm
  congr := Inv.congr
  create_inv := create_inv
  create_aligned := by
    intro buffer size sizeClass m h buffer' m' hne hlt hle ha
    obtain ⟨_, hsize, hclass, _⟩ := create_isSome_iff.mp h
    refine create_isSome_iff.mpr ⟨hne, hsize, hclass, .inr ?_⟩
    exact (congrArg (· % 4096) (sub64_of_le hle hlt)).trans ha
  create_shift := by
    intro buffer size sizeClass m h hle k m'
    obtain ⟨hne, hsize, hclass, ha⟩ := create_isSome_iff.mp h
    refine create_isSome_iff.mpr ⟨by omega, hsize, hclass, ?_⟩
    unfold sub64 at ha ⊢
    omega
  create_class := by
    intro buffer size sizeClass m h _
    obtain ⟨_, hsize, hclass, _⟩ := create_isSome_iff.mp h
    omega
  allocate_spec := by
    intro p live size h _
    obtain ⟨ptr, p', he, hs⟩ := h.allocate_spec size
    exact ⟨ptr, p', congrArg some he, hs⟩
  deallocate_spec {p x live ptr} h _ hblock := by
    obtain rfl : ptr = x.ptr := congrArg Prod.fst hblock
    obtain ⟨hinv, hconf⟩ := h.deallocate_spec
    refine ⟨_, rfl, hinv, hconf, ?_⟩
    rw [hinv.used, h.used, hconf.frame.sizeClass, List.length_cons, Nat.mul_succ]
    rfl
  deallocate_frees {p p' x live ptr} h _ hblock he := by
    obtain rfl : ptr = x.ptr := congrArg Prod.fst hblock
    cases he
    obtain ⟨nodes, hpath, hmem⟩ := h.deallocate_frees
    have hclass := h.deallocate_spec.2.frame.sizeClass
    refine ⟨nodes, x.ptr, hpath, hmem, le_rfl, ?_⟩
    rw [h.size x List.mem_cons_self, hclass]
  inside := Inv.inside
  apart := Inv.apart
  used_eq_zero := Inv.used_eq_zero
  free_nodes := by
    intro p live h
    obtain ⟨nodes, hpath, hn⟩ := h.partition
    have h8 := h.eight_le
    have hmem : ∀ a ∈ nodes, a ∈ chunks p.header := fun a ha => hn.subset (List.mem_append_left _ ha)
    refine ⟨nodes, hpath, fun h0 => chunk_pos h.start_pos (hmem 0 h0) rfl, fun a ha => ?_⟩
    have hin := chunk_inside (hmem a ha)
    refine ⟨hin.1, by change a + 8 ≤ _; omega, fun x hx => ?_⟩
    have hap := h.node_apart hn ha hx
    rw [h.size x hx]
    change a + 8 ≤ _ ∨ _
    omega
  aligned := by
    intro p live x h ha hx
    obtain ⟨hs, hc⟩ := ha rfl
    obtain ⟨i, _, he⟩ := LogicalPage.mem_chunks.mp (h.mem_chunks hx)
    rw [he, Nat.add_mod, hs, Nat.mul_mod, hc, Nat.mul_zero]

end Metamalloc.Pages.LogicalPage
