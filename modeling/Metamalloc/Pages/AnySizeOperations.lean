import Metamalloc.Pages.AnySizeTiling

/-! What creation, allocation and deallocation do to the layout of an any-size page. -/
namespace Metamalloc.Pages.LogicalPageAnySize
open Library.Word64 Library.ByteMemory Library.LinkedList Library.Tiling

section
variable {p q : Page} {free pre post : List Block} {taken : List TakenBlock}
  {y : TakenBlock} {b c : Block} {size : Nat}

/-- Merging a block with the adjacent block behind it in the list. -/
theorem Represents.absorb (h : Represents p (pre ++ b :: c :: post) taken)
    (hadj : b.start + b.size = c.start) :
    Represents (absorb b.start c.start p) (pre ++ ⟨b.start, b.size + c.size⟩ :: post) taken ∧
      Untouched p (absorb b.start c.start p) taken := by
  have hb := h.node_fits b (by simp)
  have hc := h.node_fits c (by simp)
  have hcin := h.free_inside (show c ∈ pre ++ b :: c :: post by simp)
  have hbound := h.bound
  let s := b.size + c.size
  have hs : s < 2^64 := by omega
  have hsize : add64 (getBlockSize p.bytes b.start) (getBlockSize p.bytes c.start) = s := by
    rw [getBlockSize, getBlockSize, h.freeList.sizes b (by simp), h.freeList.sizes c (by simp)]
    exact add64_of_lt hs
  let p₁ : Page := { p with bytes := setBlockSize p.bytes b.start s }
  have hf₁ : FreeList p₁.bytes p₁.header.head ((pre ++ [⟨b.start, s⟩]) ++ c :: post) := by
    rw [List.append_assoc, List.singleton_append]
    exact h.freeList.setBlockSize h.placed hs
  have hp₁ : Placed ((pre ++ [⟨b.start, s⟩]) ++ c :: post) := h.placed.of_starts (by simp)
  obtain ⟨q, hq, hfq, hqh, hqb⟩ := remove_spec hf₁ hp₁
  rw [lastStart_concat] at hq hqb
  have he : LogicalPageAnySize.absorb b.start c.start p =
      { q with header := { q.header with lastUsedNode := 0 } } := by
    simp only [LogicalPageAnySize.absorb, hsize]
    rw [← hq]
  have hu : Untouched p (LogicalPageAnySize.absorb b.start c.start p) taken := by
    rw [he]
    refine ⟨?_, fun x hx => ?_⟩
    · rw [hqh]
      exact ⟨rfl, rfl, rfl, rfl, rfl, rfl⟩
    · have hbx := h.not_holds hx (show b ∈ pre ++ b :: c :: post by simp)
      simp only [Block.Holds] at hbx
      change q.bytes x = p.bytes x
      dsimp only at hqb
      rw [hqb x (by omega)]
      exact write64_apply (by omega)
  refine ⟨h.of_untouched hu ?_ ?_ ?_ ?_, hu⟩
  · rw [he]
    simpa using hfq
  · have ht : Tiles (⟨b.start, b.size⟩ :: ⟨b.start + b.size, c.size⟩ ::
        (pre ++ (post ++ taken.map TakenBlock.block))) p.header.logicalPageStartAddress
        p.header.bufferEnd := by
      have hc' : (⟨b.start + b.size, c.size⟩ : Block) = c := by rw [hadj]
      rw [hc']
      refine h.tiles.perm ?_
      rw [List.append_assoc, List.cons_append, List.cons_append]
      exact List.perm_middle.trans (List.perm_middle.cons b)
    have hm := (Tiles.split_iff (by omega) (by omega)).mpr ht
    refine hm.perm ?_
    rw [List.append_assoc, List.cons_append]
    exact List.perm_middle.symm
  · intro d hd
    rcases List.mem_cons.mp (List.perm_middle.mem_iff.mp hd) with rfl | hd
    · dsimp only
      omega
    · refine h.node_fits d ?_
      simp only [List.mem_append, List.mem_cons] at hd ⊢
      exact hd.imp_right fun hd => .inr (.inr hd)
  · rw [he]
    change q.header.usedSize = _
    rw [hqh]

theorem Represents.off_lastStart (h : Represents p (pre ++ post) taken) {x : Nat}
    (hx : Foreign p taken x) :
    lastStart pre = 0 ∨ x < lastStart pre ∨ lastStart pre + 8 ≤ x := by
  by_cases h0 : lastStart pre = 0
  · exact .inl h0
  · obtain ⟨c, hc, hce⟩ := lastStart_mem h0
    have hcx := h.not_holds hx (List.mem_append_left post hc)
    have hc16 := h.node_fits c (List.mem_append_left post hc)
    simp only [Block.Holds] at hcx
    omega

/-- How a block that fits is cut: a remainder that can hold a node stays free,
a smaller one is added to the allocated block. -/
def Carved (b : Block) (needed total : Nat) (rest : List Block) : Prop :=
  b.size - needed ≥ 16 ∧ total = needed ∧ rest = [⟨b.start + needed, b.size - needed⟩] ∨
    b.size - needed < 16 ∧ total = b.size ∧ rest = []

theorem carved_tiles {lo hi needed total : Nat} {rest blocks : List Block}
    (h : Tiles (pre ++ b :: post ++ blocks) lo hi) (hc : Carved b needed total rest)
    (hn : 0 < needed) (hle : needed ≤ b.size) :
    Tiles (⟨b.start, total⟩ :: (pre ++ (rest ++ post) ++ blocks)) lo hi := by
  have hb : Tiles (b :: (pre ++ (post ++ blocks))) lo hi := by
    refine h.perm ?_
    rw [List.append_assoc, List.cons_append]
    exact List.perm_middle
  rcases hc with ⟨h16, rfl, rfl⟩ | ⟨_, rfl, rfl⟩
  · have hs : Tiles (⟨b.start, total⟩ :: ⟨b.start + total, b.size - total⟩ ::
        (pre ++ (post ++ blocks))) lo hi := by
      refine (Tiles.split_iff hn (by omega)).mp ?_
      rwa [Nat.add_sub_cancel' hle]
    refine hs.perm (List.Perm.cons _ ?_)
    rw [List.append_assoc, List.append_assoc, List.singleton_append]
    exact List.perm_middle.symm
  · simpa using hb

/-- What is left in the list can still hold nodes. -/
theorem Represents.carved_node_fits {needed total : Nat} {rest : List Block}
    (h : Represents p (pre ++ b :: post) taken) (hc : Carved b needed total rest) :
    ∀ d ∈ pre ++ (rest ++ post), 16 ≤ d.size := by
  intro d hd
  simp only [List.mem_append] at hd
  rcases hd with hd | hd | hd
  · exact h.node_fits d (by simp [hd])
  · rcases hc with ⟨h16, _, rfl⟩ | ⟨_, _, rfl⟩
    · rw [List.mem_singleton.mp hd]
      exact h16
    · cases hd
  · exact h.node_fits d (by simp [hd])

/-- The used size does not wrap: the new block shares the buffer with those that are taken. -/
theorem Represents.carved_used {total start : Nat} {blocks : List Block} (h : Represents p free taken)
    (ht : Tiles (⟨start, total⟩ :: (blocks ++ taken.map TakenBlock.block)) p.header.logicalPageStartAddress
      p.header.bufferEnd) :
    add64 p.header.usedSize total = total + (taken.map TakenBlock.size).sum := by
  have hbound := h.bound
  have hsum := ht.sum_size
  simp only [List.map_cons, List.sum_cons, List.map_append, List.sum_append, List.map_map] at hsum
  simp only [LogicalPageHeader.bufferEnd] at hsum hbound
  have hused : (taken.map TakenBlock.size).sum = (taken.map (Block.size ∘ TakenBlock.block)).sum := rfl
  rw [h.used, hused, add64_of_lt (by omega)]
  omega

theorem takeBlock_spec {padding allocationSize : Nat} (h : Represents p (pre ++ b :: post) taken)
    (hs : allocationSize + 32 < 2^64) (hpad : padding < 16) (h16 : 16 ≤ allocationSize)
    (hfit : allocationSize + 16 + padding ≤ b.size) :
    ∃ total rest r, takeBlock b.start padding allocationSize p = (total, r) ∧
      Carved b (allocationSize + 16 + padding) total rest ∧
      Placed (pre ++ b :: (rest ++ post)) ∧
      FreeList r.bytes r.header.head (pre ++ b :: (rest ++ post)) ∧
      r.header = { p.header with head := r.header.head } ∧
      ∀ x, ¬ b.Holds x → r.bytes x = p.bytes x := by
  have hin := h.free_inside (show b ∈ pre ++ b :: post by simp)
  have hbound := h.bound
  have hlo := h.start_pos
  have htotal : add64 (add64 allocationSize padding) nodeSize = allocationSize + 16 + padding := by
    simp only [nodeSize]
    rw [add64_of_lt (by omega : allocationSize + padding < 2^64), add64_of_lt (by omega)]
    omega
  have hexcess : sub64 (getBlockSize p.bytes b.start) (allocationSize + 16 + padding) =
      b.size - (allocationSize + 16 + padding) := by
    rw [getBlockSize, h.freeList.sizes b (by simp)]
    exact sub64_of_le hfit (by omega)
  simp only [takeBlock, htotal, hexcess]
  simp only [nodeSize]
  by_cases hex : 16 ≤ b.size - (allocationSize + 16 + padding)
  · rw [if_pos hex]
    let needed := allocationSize + 16 + padding
    let n := b.start + needed
    let s := b.size - needed
    have hn : add64 b.start (allocationSize + 16 + padding) = n := add64_of_lt (by omega)
    rw [hn]
    have hcarve : Carved b needed needed [⟨n, s⟩] := .inl ⟨hex, rfl, rfl⟩
    have ht := carved_tiles h.tiles hcarve (by omega) hfit
    have hplaced : Placed (pre ++ b :: ⟨n, s⟩ :: post) := by
      have ht' : Tiles ((pre ++ ⟨b.start, needed⟩ :: ⟨n, s⟩ :: post) ++
          taken.map TakenBlock.block) p.header.logicalPageStartAddress p.header.bufferEnd := by
        refine ht.perm ?_
        simp only [List.append_assoc, List.cons_append]
        exact List.perm_middle.symm
      refine (placed_of_tiles ht' ?_ hlo hbound).of_starts (by simp)
      intro d hd
      simp only [List.mem_append, List.mem_cons] at hd
      rcases hd with hd | rfl | rfl | hd
      · exact h.node_fits d (by simp [hd])
      · dsimp only [needed]
        omega
      · exact hex
      · exact h.node_fits d (by simp [hd])
    let p₁ : Page := { p with bytes := setBlockSize p.bytes n s }
    have hf₁ : FreeList p₁.bytes p₁.header.head ((pre ++ [b]) ++ post) := by
      rw [List.append_assoc, List.singleton_append]
      refine h.freeList.frame fun d hd => agreeOn_write64 ?_
      rcases List.mem_cons.mp (List.perm_middle.mem_iff.mp hd) with rfl | hd'
      · omega
      · have ha : NodesApart n d.start := by
          have hq : Placed ((pre ++ [b]) ++ ⟨n, s⟩ :: post) := by simpa using hplaced
          refine hq.apart_of_ne ?_
          simp only [List.mem_append, List.mem_cons] at hd' ⊢
          tauto
        simp only [NodesApart] at ha
        omega
    obtain ⟨r, hr, hfr, hrh, hrb⟩ := insert_spec (n := n) (s := s) hf₁ (by simpa using hplaced)
      (read64_write64_same (by omega))
    rw [lastStart_concat] at hr hrb
    refine ⟨needed, [⟨n, s⟩], r, ?_, hcarve, hplaced, by simpa using hfr, hrh, fun x hx => ?_⟩
    · rw [← hr]
    · simp only [Block.Holds] at hx
      rw [hrb x (by omega) (by omega)]
      exact write64_apply (by omega)
  · rw [if_neg hex]
    have hcarve : Carved b (allocationSize + 16 + padding) b.size [] := .inr ⟨by omega, rfl, rfl⟩
    refine ⟨b.size, [], p, ?_, hcarve, by simpa using h.placed, by simpa using h.freeList, rfl,
      fun _ _ => rfl⟩
    split
    · rw [add64_of_lt (by omega)]
      congr 1
      omega
    · congr 1
      omega

/-- The header of the new block is written inside it, once its node is out of the list. -/
theorem Represents.writeAllocation {r : Page} {rest : List Block} (h : Represents p (pre ++ b :: post) taken)
    (hcarve : Carved b (y.payload + 16 + y.padding) y.size rest) (hfit : y.payload + 16 + y.padding ≤ b.size)
    (hstart : y.start = b.start) (hpayload : 16 ≤ y.payload) (hmod : y.ptr % 16 = 0)
    (hfree : FreeList r.bytes r.header.head (pre ++ (rest ++ post)))
    (hheader : r.header = { p.header with head := r.header.head })
    (hbytes : ∀ x, Foreign p taken x → r.bytes x = p.bytes x) :
    ∃ q, writeAllocation b.start y.padding y.size r = (y.ptr, q) ∧
      Represents q (pre ++ (rest ++ post)) (y :: taken) ∧ Untouched p q taken := by
  have hin := h.free_inside (show b ∈ pre ++ b :: post by simp)
  have hbound := h.bound
  have hle : y.payload + 16 + y.padding ≤ y.size ∧ y.size ≤ b.size := by
    rcases hcarve with ⟨_, hsize, _⟩ | ⟨_, hsize, _⟩
    · exact ⟨hsize.ge, hsize ▸ hfit⟩
    · exact ⟨hsize ▸ hfit, hsize.le⟩
  have hh : add64 b.start y.padding = y.header := by
    rw [← hstart]
    exact add64_of_lt (by omega)
  have hptr : add64 y.header nodeSize = y.ptr :=
    add64_of_lt (by simp only [TakenBlock.header, nodeSize]; omega)
  let q : Page :=
    { header := { r.header with usedSize := add64 r.header.usedSize y.size }
      bytes := setPaddingSize (setBlockSize r.bytes y.header y.size) y.header y.padding }
  have hq : LogicalPageAnySize.writeAllocation b.start y.padding y.size r = (y.ptr, q) := by
    simp only [LogicalPageAnySize.writeAllocation, hh, hptr, q]
  have hheader' : q.header = { p.header with
      head := r.header.head
      usedSize := add64 p.header.usedSize y.size } := by
    simp only [q]
    rw [hheader]
  have htiles : Tiles (⟨y.start, y.size⟩ :: (pre ++ (rest ++ post) ++ taken.map TakenBlock.block))
      p.header.logicalPageStartAddress p.header.bufferEnd := by
    rw [hstart]
    exact carved_tiles h.tiles hcarve (by omega) hfit
  have hu : Untouched p q taken := by
    refine ⟨by rw [hheader']; exact ⟨rfl, rfl, rfl, rfl, rfl, rfl⟩, fun x hx => ?_⟩
    have hbx := h.not_holds hx (show b ∈ pre ++ b :: post by simp)
    simp only [Block.Holds] at hbx
    simp only [q, setPaddingSize, setBlockSize, TakenBlock.header]
    rw [write64_apply (by omega), write64_apply (by omega), hbytes x hx]
  -- away from every remaining node
  have hkeep : ∀ d ∈ pre ++ (rest ++ post), AgreeOn r.bytes q.bytes d.start (d.start + 16) := by
    intro d hd x hlo hhi
    have ha := htiles.apart_cons (List.mem_append_left _ hd)
    have h16 := h.carved_node_fits hcarve d hd
    simp only [Block.Apart] at ha
    simp only [q, setPaddingSize, setBlockSize, TakenBlock.header]
    rw [write64_apply (by omega), write64_apply (by omega)]
  refine ⟨q, hq, ⟨?_, ?_, ?_, ?_, ?_, ?_, ?_, ?_, ?_⟩, hu⟩
  · exact hfree.frame hkeep
  · intro z hz
    rcases List.mem_cons.mp hz with rfl | hz
    · simp only [getPaddingSize, getBlockSize, q, setPaddingSize, setBlockSize]
      refine ⟨read64_write64_same (by omega), ?_⟩
      rw [read64_write64_of_disjoint (.inr le_rfl)]
      exact read64_write64_same (by omega)
    · exact h.stored_of_agree hz fun x hx => hu.bytes x (.inr ⟨z, hz, hx⟩)
  · rw [hu.bufferEnd, hu.frame.start]
    exact htiles.perm List.perm_middle.symm
  · exact h.carved_node_fits hcarve
  · intro z hz
    rcases List.mem_cons.mp hz with rfl | hz
    · exact ⟨by omega, hpayload, hmod⟩
    · exact h.fits z hz
  · rw [hheader']
    exact h.carved_used htiles
  · rw [hu.frame.start]
    exact h.start_pos
  · rw [hu.frame.size]
    exact h.size_pos
  · rw [hu.bufferEnd]
    exact h.bound

/-- First fit: either no node fits and the page is left as it was, or the first node
that fits is taken and only its remainder, if any, stays in the list. -/
theorem Represents.allocate_spec (h : Represents p free taken) (hs : size + 32 < 2^64) :
    allocate size p = some (0, p) ∧ (∀ b ∈ free, ¬ Fits (max size 16) b) ∨
    ∃ pre b post rest q y, free = pre ++ b :: post ∧ Fits (max size 16) b ∧
      (∀ c ∈ pre, ¬ Fits (max size 16) c) ∧
      allocate size p = some (y.ptr, q) ∧
      Carved b (max size 16 + 16 + y.padding) y.size rest ∧
      y.start = b.start ∧ y.padding = calculatePaddingNeeded b.start minAlignmentSize ∧
      y.payload = max size 16 ∧
      Represents q (pre ++ (rest ++ post)) (y :: taken) ∧ Untouched p q taken := by
  have hmax : (if size < nodeSize then nodeSize else size) = max size 16 := by
    simp only [nodeSize]
    split <;> omega
  have hs' : max size 16 + 32 < 2^64 := by omega
  have hfind := @findInternal_spec p.bytes [] free _ _ _ hs' h.freeList.path h.freeList.sizes
    h.placed.ne_zero h.length_lt
  rw [lastStart_nil] at hfind
  rcases hfind with ⟨he, hno⟩ | ⟨pre, b, post, rfl, hfit, hno, he⟩
  · refine .inl ⟨?_, hno⟩
    simp only [LogicalPageAnySize.allocate, find, hmax, he]
  right
  rw [List.nil_append] at he
  let pad := calculatePaddingNeeded b.start minAlignmentSize
  have hpad : pad < 16 := calculatePaddingNeeded_lt _
  have hfit' : max size 16 + 16 + pad ≤ b.size := hfit
  have hin := h.free_inside (show b ∈ pre ++ b :: post by simp)
  have hbound := h.bound
  obtain ⟨total, rest, r, hr, hcarve, hplaced, hfr, hrh, hrb⟩ :=
    takeBlock_spec h hs' hpad (le_max_right _ _) hfit'
  obtain ⟨r', hr', hfr', hrh', hrb'⟩ := remove_spec hfr hplaced
  have hbytes : ∀ x, Foreign p taken x → r'.bytes x = p.bytes x := by
    intro x hx
    rw [hrb' x (h.off_lastStart hx), hrb x (h.not_holds hx (by simp))]
  have hmod : (b.start + pad + 16) % 16 = 0 := calculatePaddingNeeded_mod (by omega)
  let y : TakenBlock := ⟨b.start, pad, total, max size 16⟩
  obtain ⟨q, hq, hrep, hu⟩ := h.writeAllocation (y := y) hcarve hfit' rfl (le_max_right _ _) hmod hfr'
    (by rw [hrh', hrh]) hbytes
  refine ⟨pre, b, post, rest, q, y, rfl, hfit, hno, ?_, hcarve, rfl, rfl, rfl, hrep, hu⟩
  simp only [LogicalPageAnySize.allocate, find, hmax, he]
  rw [hr]
  simp only [hr']
  exact congrArg some hq

/-- Where a freed block goes in the free list `pre ++ post`, and the previous node the merge
is told of. A single free node is passed without a look at its address. -/
inductive InsertPlace (ptr : Nat) : (pre post : List Block) → (previous : Nat) → Prop
  | only (b : Block) : InsertPlace ptr [b] [] 0
  | ordered {pre post : List Block} (hl : (pre ++ post).length ≠ 1) (hpre : ∀ b ∈ pre, b.start ≤ ptr)
      (hpost : ∀ b, post.head? = some b → ptr < b.start) : InsertPlace ptr pre post (lastStart pre)

theorem deallocatePosition_spec {ptr : Nat} (hf : FreeList p.bytes p.header.head free)
    (hp : Placed free) (hl : free.length < walkFuel p) :
    ∃ pre post previous, free = pre ++ post ∧
      deallocatePosition ptr p = some (lastStart pre, previous) ∧ InsertPlace ptr pre post previous := by
  unfold deallocatePosition
  cases free with
  | nil =>
    have h0 : p.header.head = 0 := (hf.head_eq_zero_iff hp).mpr rfl
    exact ⟨[], [], 0, rfl, by simp [h0], .ordered (by simp) (by simp) (by simp)⟩
  | cons b free =>
    have h0 : p.header.head ≠ 0 := fun he => by simpa using (hf.head_eq_zero_iff hp).mp he
    have hb : b.start = p.header.head := hf.path.1.symm
    have hnext : getNextPointer p.bytes p.header.head = (free.head?.map Block.start).getD 0 := by
      rw [← hb]
      exact @FreeList.next_eq _ _ [] free b hf
    dsimp only
    rw [if_pos h0, hnext]
    cases free with
    | nil =>
      refine ⟨[b], [], 0, rfl, ?_, .only b⟩
      rw [← hb]
      rfl
    | cons c free =>
      have hc : c.start ≠ 0 := hp.ne_zero c (by simp)
      obtain ⟨l, r, he, hpre, hpost, hi⟩ := @insertPosition_spec p.bytes [] (b :: c :: free) ptr _ _
        hf.path hp.ne_zero hl
      rw [lastStart_nil, List.nil_append] at hi
      refine ⟨l, r, lastStart l, he, ?_, .ordered (by rw [← he]; simp) hpre hpost⟩
      rw [if_neg (show ((c :: free).head?.map Block.start).getD 0 ≠ 0 from hc), hi]
      rfl

def prepareNode (y : TakenBlock) (p : Page) : Page :=
  { p with bytes := clearNextPointer (setBlockSize p.bytes y.start y.size) y.start }

theorem prepareNode_apply {x : Nat} (hx : x < y.start ∨ y.start + 16 ≤ x) :
    (prepareNode y p).bytes x = p.bytes x := by
  simp only [prepareNode, clearNextPointer, setBlockSize]
  rw [write64_apply (by omega), write64_apply (by omega)]

theorem Represents.prepareNode_freeList (h : Represents p free (y :: taken)) :
    FreeList (prepareNode y p).bytes p.header.head free := by
  have hroom := h.fits y List.mem_cons_self
  refine h.freeList.frame fun b hb x hlo hhi => prepareNode_apply ?_
  have ha := h.free_apart_taken hb List.mem_cons_self
  have hb16 := h.node_fits b hb
  simp only [Block.Apart, TakenBlock.block] at ha
  omega

theorem Represents.release_tiles (h : Represents p (pre ++ post) (y :: taken)) :
    Tiles ((pre ++ y.block :: post) ++ taken.map TakenBlock.block)
      p.header.logicalPageStartAddress p.header.bufferEnd := by
  refine h.tiles.perm ?_
  simp only [List.map_cons, List.append_assoc, List.cons_append]
  exact List.perm_middle.append_left pre

theorem Represents.release_node_fits (h : Represents p (pre ++ post) (y :: taken)) :
    ∀ b ∈ pre ++ y.block :: post, 16 ≤ b.size := by
  intro b hb
  rcases List.mem_cons.mp (List.perm_middle.mem_iff.mp hb) with rfl | hb
  · have := (h.fits y List.mem_cons_self).1
    simp only [TakenBlock.block]
    omega
  · exact h.node_fits b hb

theorem Represents.not_holds_freed (h : Represents p free (y :: taken)) {x : Nat}
    (hx : Foreign p taken x) : ¬ y.block.Holds x := by
  intro hyx
  have hin := h.taken_inside List.mem_cons_self
  rcases hx with hx | ⟨z, hz, hzx⟩
  · simp only [TakenBlock.block, Block.Holds] at hyx
    omega
  · have hp := (List.pairwise_append.mp h.tiles.apart).2.1
    have ha : y.block.Apart z.block := (List.pairwise_cons.mp hp).1 _ (List.mem_map_of_mem hz)
    simp only [Block.Apart, Block.Holds] at ha hyx hzx
    omega

theorem Foreign.cons {x : Nat} (hx : Foreign p taken x) : Foreign p (y :: taken) x :=
  hx.imp_right fun ⟨z, hz, hzx⟩ => ⟨z, List.mem_cons_of_mem _ hz, hzx⟩

theorem Represents.release_insert (h : Represents p (pre ++ post) (y :: taken)) :
    ∃ q, insert (lastStart pre) y.start (prepareNode y p) = q ∧
      FreeList q.bytes q.header.head (pre ++ y.block :: post) ∧
      q.header = { p.header with head := q.header.head } ∧
      ∀ x, Foreign p taken x → q.bytes x = p.bytes x := by
  have hroom := h.fits y List.mem_cons_self
  have hin := h.taken_inside List.mem_cons_self
  have hbound := h.bound
  have hplaced := placed_of_tiles h.release_tiles h.release_node_fits h.start_pos h.bound
  have hs : read64 (prepareNode y p).bytes (y.start + 8) = y.size := by
    simp only [prepareNode, clearNextPointer, setBlockSize]
    rw [read64_write64_of_disjoint (.inr le_rfl), read64_write64_same (by omega)]
  obtain ⟨q, hq, hf, hh, hb⟩ := insert_spec (p := prepareNode y p) h.prepareNode_freeList hplaced hs
  refine ⟨q, hq, hf, hh, fun x hx => ?_⟩
  have hyx := h.not_holds_freed hx
  simp only [TakenBlock.block, Block.Holds] at hyx
  rw [hb x (by omega) (h.off_lastStart hx.cons)]
  exact prepareNode_apply (by omega)

theorem Represents.release_used (h : Represents p free (y :: taken)) :
    sub64 p.header.usedSize y.size = (taken.map TakenBlock.size).sum := by
  have hbound := h.bound
  have hused := h.used
  have hle := h.size_eq
  rw [List.map_cons, List.sum_cons] at hused
  simp only [LogicalPageHeader.bufferEnd] at hbound
  rw [sub64_of_le (by omega) (by omega)]
  omega

/-- The freed block becomes a node of the free list, wherever the search put it. -/
theorem Represents.release (h : Represents p (pre ++ post) (y :: taken)) :
    Represents (subtractUsedSize y.start (insert (lastStart pre) y.start (prepareNode y p)))
        (pre ++ y.block :: post) taken ∧
      Untouched p (subtractUsedSize y.start (insert (lastStart pre) y.start (prepareNode y p)))
        taken := by
  obtain ⟨q, hq, hf, hh, hb⟩ := h.release_insert
  rw [hq]
  have hsize : getBlockSize q.bytes y.start = y.size := hf.sizes y.block (by simp)
  have hheader : (subtractUsedSize y.start q).header = { p.header with
      head := q.header.head
      usedSize := (taken.map TakenBlock.size).sum } := by
    rw [← h.release_used, subtractUsedSize, hsize, hh]
  have hu : Untouched p (subtractUsedSize y.start q) taken :=
    ⟨by rw [hheader]; exact ⟨rfl, rfl, rfl, rfl, rfl, rfl⟩, hb⟩
  refine ⟨⟨⟨hf.path, hf.sizes⟩, ?_, ?_, h.release_node_fits, ?_, ?_, ?_, ?_, ?_⟩, hu⟩
  · exact fun z hz => h.stored_of_agree (q := subtractUsedSize y.start q)
      (List.mem_cons_of_mem _ hz) fun x hx => hu.bytes x (.inr ⟨z, hz, hx⟩)
  · rw [hu.bufferEnd, hu.frame.start]
    exact h.release_tiles
  · exact fun z hz => h.fits z (List.mem_cons_of_mem _ hz)
  · rw [hheader]
  · rw [hu.frame.start]
    exact h.start_pos
  · rw [hu.frame.size]
    exact h.size_pos
  · rw [hu.bufferEnd]
    exact h.bound

/-- A block in front of a list of blocks, merged with the first of them when that is adjacent. -/
def mergeNext (b : Block) : List Block → List Block
  | [] => [b]
  | c :: post => if b.start + b.size = c.start then ⟨b.start, b.size + c.size⟩ :: post else b :: c :: post

/-- The last of the leading blocks, merged with the first of the others when that is adjacent. -/
def mergePrevious (pre rest : List Block) : List Block :=
  match pre.getLast? with
  | none => rest
  | some c => pre.dropLast ++ mergeNext c rest

@[simp] theorem mergePrevious_nil (rest : List Block) : mergePrevious [] rest = rest := rfl
@[simp] theorem mergePrevious_concat (pre rest : List Block) (c : Block) :
    mergePrevious (pre ++ [c]) rest = pre ++ mergeNext c rest := by
  simp [mergePrevious]

theorem mergeNext_eq_cons (b : Block) (post : List Block) :
    ∃ b' post', mergeNext b post = b' :: post' ∧ b'.start = b.start := by
  cases post with
  | nil => exact ⟨b, [], rfl, rfl⟩
  | cons c post =>
    rw [mergeNext]
    split
    · exact ⟨_, _, rfl, rfl⟩
    · exact ⟨_, _, rfl, rfl⟩

theorem Represents.coalesceNext (h : Represents p (pre ++ b :: post) taken) :
    Represents (coalesceNext b.start p) (pre ++ mergeNext b post) taken ∧
      Untouched p (coalesceNext b.start p) taken := by
  have hin := h.free_inside (show b ∈ pre ++ b :: post by simp)
  have hbound := h.bound
  have hend : add64 b.start (getBlockSize p.bytes b.start) = b.start + b.size := by
    rw [getBlockSize, h.freeList.sizes b (by simp), add64_of_lt (by omega)]
  unfold LogicalPageAnySize.coalesceNext
  rw [hend]
  cases post with
  | nil =>
    have hnext : getNextPointer p.bytes b.start = 0 := h.freeList.next_eq
    rw [if_neg fun hc => hc.1 hnext]
    exact ⟨h, .refl _ _⟩
  | cons c post =>
    have hnext : getNextPointer p.bytes b.start = c.start := h.freeList.next_eq
    have hc0 : c.start ≠ 0 := h.placed.ne_zero c (by simp)
    rw [hnext, mergeNext]
    by_cases hadj : b.start + b.size = c.start
    · rw [if_pos hadj, if_pos ⟨hc0, hadj⟩]
      exact h.absorb hadj
    · rw [if_neg hadj, if_neg fun hc => hadj hc.2]
      exact ⟨h, .refl _ _⟩

theorem Represents.coalescePrevious {rest : List Block} {node : Nat} (h : Represents p (pre ++ rest) taken)
    (hnode : (rest.head?.map Block.start).getD 0 = node) (hne : node ≠ 0) :
    Represents (coalescePrevious (lastStart pre) node p) (mergePrevious pre rest) taken ∧
      Untouched p (coalescePrevious (lastStart pre) node p) taken := by
  unfold LogicalPageAnySize.coalescePrevious
  rcases List.eq_nil_or_concat' pre with rfl | ⟨pre, c, rfl⟩
  · rw [if_neg fun hc => hc.1 rfl]
    exact ⟨h, .refl _ _⟩
  · rw [List.append_assoc, List.singleton_append] at h
    have hin := h.free_inside (show c ∈ pre ++ c :: rest by simp)
    have hbound := h.bound
    have hc0 : c.start ≠ 0 := h.placed.ne_zero c (by simp)
    rw [lastStart_concat, mergePrevious_concat, getBlockSize, h.freeList.sizes c (by simp),
      add64_of_lt (by omega)]
    cases rest with
    | nil => exact absurd hnode.symm hne
    | cons b post =>
      obtain rfl : b.start = node := hnode
      rw [mergeNext]
      by_cases hadj : c.start + c.size = b.start
      · rw [if_pos hadj, if_pos ⟨hc0, hadj⟩]
        exact h.absorb hadj
      · rw [if_neg hadj, if_neg fun hc => hadj hc.2]
        exact ⟨h, .refl _ _⟩

theorem coalescePrevious_zero (node : Nat) (p : Page) : coalescePrevious 0 node p = p :=
  if_neg fun hc => hc.1 rfl

/-- The free list a deallocation leaves, by the previous node its merge was told of. -/
def releasedFree (policy : CoalescePolicy) (previous : Nat) (pre : List Block) (b : Block)
    (post : List Block) : List Block :=
  match policy with
  | .noCoalescing => pre ++ b :: post
  | .coalesce => if previous = 0 then pre ++ mergeNext b post else mergePrevious pre (mergeNext b post)

def LiesWithin (b : Block) (free : List Block) : Prop :=
  ∃ c ∈ free, c.start ≤ b.start ∧ b.start + b.size ≤ c.start + c.size

theorem liesWithin_mergeNext (b : Block) (post : List Block) : LiesWithin b (mergeNext b post) := by
  cases post with
  | nil => exact ⟨b, List.mem_singleton_self b, le_rfl, le_rfl⟩
  | cons c post =>
    rw [mergeNext]
    split
    · exact ⟨_, List.mem_cons_self, le_rfl, by dsimp only; omega⟩
    · exact ⟨b, List.mem_cons_self, le_rfl, le_rfl⟩

theorem LiesWithin.mergePrevious {pre rest : List Block} (h : LiesWithin b rest) :
    LiesWithin b (mergePrevious pre rest) := by
  rcases List.eq_nil_or_concat' pre with rfl | ⟨pre, a, rfl⟩
  · exact h
  · obtain ⟨c, hc, hlo, hhi⟩ := h
    rw [mergePrevious_concat]
    cases rest with
    | nil => cases hc
    | cons c' post =>
      rw [mergeNext]
      split
      · rename_i hadj
        obtain rfl | hc := List.mem_cons.mp hc
        · exact ⟨_, List.mem_append_right _ List.mem_cons_self, by dsimp only; omega, by dsimp only; omega⟩
        · exact ⟨c, List.mem_append_right _ (List.mem_cons_of_mem _ hc), hlo, hhi⟩
      · exact ⟨c, List.mem_append_right _ (List.mem_cons_of_mem _ hc), hlo, hhi⟩

/-- Whatever is merged, the block that was given back is free. -/
theorem liesWithin_releasedFree (policy : CoalescePolicy) (previous : Nat) (pre : List Block) (b : Block)
    (post : List Block) : LiesWithin b (releasedFree policy previous pre b post) := by
  cases policy with
  | noCoalescing => exact ⟨b, List.mem_append_right _ List.mem_cons_self, le_rfl, le_rfl⟩
  | coalesce =>
    rw [releasedFree]
    split
    · obtain ⟨c, hc, hinside⟩ := liesWithin_mergeNext b post
      exact ⟨c, List.mem_append_right _ hc, hinside⟩
    · exact (liesWithin_mergeNext b post).mergePrevious

theorem Represents.coalesce {ptr previous : Nat} (h : Represents p (pre ++ b :: post) taken)
    (hplace : InsertPlace ptr pre post previous) :
    Represents (coalesce previous b.start p) (releasedFree .coalesce previous pre b post) taken ∧
      Untouched p (coalesce previous b.start p) taken := by
  have hb0 : b.start ≠ 0 := h.placed.ne_zero b (by simp)
  obtain ⟨hr, hu⟩ := h.coalesceNext
  simp only [LogicalPageAnySize.coalesce, releasedFree]
  by_cases h0 : previous = 0
  · rw [if_pos h0, h0, coalescePrevious_zero]
    exact ⟨hr, hu⟩
  · rw [if_neg h0]
    cases hplace with
    | only => exact absurd rfl h0
    | ordered =>
      obtain ⟨b', post', he, hb'⟩ := mergeNext_eq_cons b post
      obtain ⟨hr', hu'⟩ := hr.coalescePrevious (by rw [he]; exact hb') hb0
      exact ⟨hr', hu.trans hu'⟩

theorem Represents.freedBlock_ptr (h : Represents p free taken) (hy : y ∈ taken) :
    freedBlock y.ptr p = (y.start, y.size) := by
  have hin := h.taken_inside hy
  have hroom := h.fits y hy
  have hbound := h.bound
  have hheader : sub64 y.ptr nodeSize = y.header := by
    rw [TakenBlock.ptr, sub64_of_le (by simp only [nodeSize]; omega) (by omega), TakenBlock.header]
    exact Nat.add_sub_cancel _ _
  have hnode : sub64 y.header y.padding = y.start := by
    rw [TakenBlock.header, sub64_of_le (by omega) (by omega)]
    exact Nat.add_sub_cancel _ _
  simp only [freedBlock, hheader, (h.stored y hy).1, (h.stored y hy).2, hnode]

/-- Deallocation of a taken block gives exactly that block back, through whatever pointer the
block is found. -/
theorem Represents.deallocate_through (policy : CoalescePolicy) {ptr : Nat}
    (h : Represents p free (y :: taken)) (howns : p.header.ownsPointer ptr = true)
    (hblock : freedBlock ptr p = (y.start, y.size)) :
    ∃ pre post previous q, free = pre ++ post ∧ InsertPlace ptr pre post previous ∧
      deallocate policy ptr p = some q ∧
      Represents q (releasedFree policy previous pre y.block post) taken ∧ Untouched p q taken := by
  obtain ⟨hnode, hsize⟩ := Prod.mk.inj hblock
  obtain ⟨pre, post, previous, rfl, hpos, hplace⟩ :=
    @deallocatePosition_spec (prepareNode y p) free ptr h.prepareNode_freeList h.placed h.length_lt
  obtain ⟨hr, hu⟩ := h.release
  rw [prepareNode] at hpos
  cases policy with
  | noCoalescing =>
    have he : deallocate .noCoalescing ptr p =
        some (subtractUsedSize y.start (insert (lastStart pre) y.start (prepareNode y p))) := by
      simp only [deallocate, howns, Bool.not_true, Bool.false_eq_true, if_false, hnode, hsize, hpos]
      rfl
    exact ⟨pre, post, previous, _, rfl, hplace, he, hr, hu⟩
  | coalesce =>
    have he : deallocate .coalesce ptr p = some (LogicalPageAnySize.coalesce previous y.start
        (subtractUsedSize y.start (insert (lastStart pre) y.start (prepareNode y p)))) := by
      simp only [deallocate, howns, Bool.not_true, Bool.false_eq_true, if_false, hnode, hsize, hpos]
      rfl
    obtain ⟨hr', hu'⟩ := hr.coalesce hplace
    exact ⟨pre, post, previous, _, rfl, hplace, he, hr', hu.trans hu'⟩

end
end Metamalloc.Pages.LogicalPageAnySize
