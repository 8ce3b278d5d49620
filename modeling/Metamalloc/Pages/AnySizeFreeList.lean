import Metamalloc.Pages.LogicalPageAnySize

/-! The free list of the any-size page in memory, and what each list operation does to it. -/
namespace Metamalloc.Pages.LogicalPageAnySize
open Library.Word64 Library.ByteMemory Library.LinkedList Library.Tiling

/-- The address of the last block, null for none: the `previous_node` of what follows. -/
def lastStart (blocks : List Block) : Nat := (blocks.getLast?.map Block.start).getD 0

@[simp] theorem lastStart_nil : lastStart [] = 0 := rfl
@[simp] theorem lastStart_concat (l : List Block) (b : Block) : lastStart (l ++ [b]) = b.start := by
  simp [lastStart]

/-- The nodes reached from the head, with the sizes stored in them. -/
structure FreeList (m : Mem) (head : Nat) (free : List Block) : Prop where
  path : Path (read64 m) head (free.map Block.start) 0
  sizes : ∀ b ∈ free, read64 m (b.start + 8) = b.size

/-- The 16 bytes of a node at `a` do not meet those of the node at `b`. -/
def NodesApart (a b : Nat) : Prop := a + 16 ≤ b ∨ b + 16 ≤ a

/-- The nodes are addresses of distinct 16-byte places. -/
structure Placed (free : List Block) : Prop where
  ne_zero : ∀ b ∈ free, b.start ≠ 0
  lt : ∀ b ∈ free, b.start < 2^64
  apart : free.Pairwise fun b c => NodesApart b.start c.start

section
variable {m m' : Mem} {p : Page} {head n s : Nat} {free pre post : List Block} {b c : Block}

theorem Placed.sublist {free' : List Block} (h : Placed free) (hs : free'.Sublist free) :
    Placed free' :=
  ⟨fun b hb => h.ne_zero b (hs.subset hb), fun b hb => h.lt b (hs.subset hb), h.apart.sublist hs⟩

theorem Placed.of_starts {free' : List Block} (h : Placed free)
    (he : free.map Block.start = free'.map Block.start) : Placed free' := by
  have hmem : ∀ b ∈ free', ∃ c ∈ free, c.start = b.start := by
    intro b hb
    have := List.mem_map_of_mem (f := Block.start) hb
    rw [← he] at this
    exact List.mem_map.mp this
  refine ⟨?_, ?_, ?_⟩
  · intro b hb
    obtain ⟨c, hc, he⟩ := hmem b hb
    exact he ▸ h.ne_zero c hc
  · intro b hb
    obtain ⟨c, hc, he⟩ := hmem b hb
    exact he ▸ h.lt c hc
  · have ha := List.pairwise_map.mpr h.apart
    rw [he] at ha
    exact List.pairwise_map.mp ha

theorem lastStart_mem (hne : lastStart free ≠ 0) : ∃ b ∈ free, b.start = lastStart free := by
  rcases List.eq_nil_or_concat' free with rfl | ⟨l, b, rfl⟩
  · exact absurd rfl hne
  · exact ⟨b, by simp, by simp⟩

theorem Placed.apart_of_ne (h : Placed (pre ++ b :: post)) (hc : c ∈ pre ++ post) :
    NodesApart b.start c.start := by
  have ha := h.apart
  rw [List.pairwise_append, List.pairwise_cons] at ha
  rcases List.mem_append.mp hc with hc | hc
  · exact Or.symm (ha.2.2 c hc b List.mem_cons_self)
  · exact ha.2.1.1 c hc

theorem FreeList.frame (h : FreeList m head free)
    (he : ∀ b ∈ free, AgreeOn m m' b.start (b.start + 16)) : FreeList m' head free := by
  refine ⟨h.path.congr ?_, fun b hb => ?_⟩
  · intro a ha
    obtain ⟨b, hb, rfl⟩ := List.mem_map.mp ha
    exact ((he b hb).mono le_rfl (by omega)).read64_eq
  · rw [((he b hb).mono (by omega) (by omega)).read64_eq]
    exact h.sizes b hb

theorem FreeList.head_eq_zero_iff (h : FreeList m head free) (hp : Placed free) :
    head = 0 ↔ free = [] := by
  cases free with
  | nil => simpa using h.path
  | cons b free =>
    obtain ⟨rfl, _⟩ := h.path
    simpa using hp.ne_zero b List.mem_cons_self

/-- The next pointer of a node leads to the node behind it, or is null at the end. -/
theorem FreeList.next_eq (h : FreeList m head (pre ++ b :: post)) :
    read64 m b.start = ((post.head?.map Block.start).getD 0) := by
  have hp := h.path
  rw [List.map_append, List.map_cons, path_append] at hp
  obtain ⟨_, _, rfl, hp⟩ := hp
  cases post with
  | nil => exact hp
  | cons c post => exact hp.1

theorem FreeList.head_lt (h : FreeList m head free) (hp : Placed free) : head < 2^64 := by
  cases free with
  | nil => rw [path_nil.mp h.path]; norm_num
  | cons b free =>
    obtain ⟨rfl, _⟩ := h.path
    exact hp.lt b List.mem_cons_self

/-- The bytes a list operation around `previous` may write. -/
def AgreeOff (m m' : Mem) (node previous : Nat) : Prop :=
  ∀ x, (x < node ∨ node + 8 ≤ x) → (previous = 0 ∨ x < previous ∨ previous + 8 ≤ x) → m' x = m x

/-- Behind a node, with or without another one behind it, the same two pointers are written. -/
theorem insert_behind {c : Nat} (hc : c ≠ 0) (hn : n < 2^64) (hapart : NodesApart n c) :
    read64 (insert c n p).bytes c = n ∧ read64 (insert c n p).bytes n = read64 p.bytes c ∧
      (∀ x, (x < n ∨ n + 8 ≤ x) → (x < c ∨ c + 8 ≤ x) → (insert c n p).bytes x = p.bytes x) ∧
      (insert c n p).header = p.header := by
  simp only [NodesApart] at hapart
  unfold insert
  rw [if_neg hc]
  split
  · rename_i hnext
    simp only [getNextPointer] at hnext
    simp only [clearNextPointer, setNextPointer]
    refine ⟨?_, ?_, ?_, trivial⟩
    · rw [read64_write64_of_disjoint (by omega), read64_write64_same hn]
    · rw [read64_write64_same (by norm_num), hnext]
    · intro x hx hx'
      rw [write64_apply hx, write64_apply hx']
  · simp only [getNextPointer, setNextPointer]
    refine ⟨?_, ?_, ?_, trivial⟩
    · rw [read64_write64_same hn]
    · rw [read64_write64_of_disjoint (by omega), read64_write64_same (read64_lt p.bytes c)]
    · intro x hx hx'
      rw [write64_apply hx', write64_apply hx]

theorem insert_spec (h : FreeList p.bytes p.header.head (pre ++ post))
    (hp : Placed (pre ++ ⟨n, s⟩ :: post)) (hs : read64 p.bytes (n + 8) = s) :
    ∃ q, insert (lastStart pre) n p = q ∧ FreeList q.bytes q.header.head (pre ++ ⟨n, s⟩ :: post) ∧
      q.header = { p.header with head := q.header.head } ∧
      AgreeOff p.bytes q.bytes n (lastStart pre) := by
  refine ⟨_, rfl, ?_⟩
  have hapart : ∀ c ∈ pre ++ post, NodesApart n c.start := fun c hc => hp.apart_of_ne hc
  have hold : Placed (pre ++ post) := hp.sublist (by simp)
  rcases List.eq_nil_or_concat' pre with rfl | ⟨pre, c, rfl⟩
  · have hbytes : (insert 0 n p).bytes = write64 p.bytes n p.header.head := by
      by_cases h0 : p.header.head = 0 <;>
        simp [insert, h0, setNextPointer, clearNextPointer]
    have hhead : (insert 0 n p).header = { p.header with head := n } := by simp [insert]
    simp only [List.nil_append, lastStart_nil] at h hold hapart ⊢
    rw [hbytes, hhead]
    have hf : FreeList (write64 p.bytes n p.header.head) p.header.head post :=
      h.frame fun c hc => agreeOn_write64 (by
        have := hapart c hc
        simp only [NodesApart] at this
        omega)
    refine ⟨⟨⟨rfl, ?_⟩, ?_⟩, rfl, fun x hx _ => write64_apply hx⟩
    · rw [read64_write64_same (h.head_lt hold)]
      exact hf.path
    · intro b hb
      rcases List.mem_cons.mp hb with rfl | hb
      · exact (read64_write64_of_disjoint (.inr le_rfl)).trans hs
      · exact hf.sizes b hb
  · have hn : n < 2^64 := hp.lt ⟨n, s⟩ (by simp)
    have hc0 : c.start ≠ 0 := hold.ne_zero c (by simp)
    have hcn := hapart c (by simp)
    simp only [lastStart_concat, List.append_assoc, List.singleton_append] at h hold hapart ⊢
    obtain ⟨hrc, hrn, hout, hhead⟩ := insert_behind (p := p) hc0 hn hcn
    simp only [NodesApart] at hcn
    have hkeep : ∀ d ∈ pre ++ post, AgreeOn p.bytes (insert c.start n p).bytes d.start (d.start + 16) := by
      intro d hd x hlo hhi
      have h1 := hapart d (List.perm_middle.mem_iff.mpr (List.mem_cons_of_mem _ hd))
      have h2 := hold.apart_of_ne hd
      simp only [NodesApart] at h1 h2
      exact hout x (by omega) (by omega)
    refine ⟨⟨?_, ?_⟩, by rw [hhead], fun x hx hx' => hout x hx (hx'.resolve_left hc0)⟩
    · have hpath := h.path
      rw [List.map_append, List.map_cons] at hpath
      rw [hhead, List.map_append, List.map_cons, List.map_cons]
      refine hpath.insert_after hrc hrn fun a ha => ?_
      rw [← List.map_append] at ha
      obtain ⟨d, hd, rfl⟩ := List.mem_map.mp ha
      exact ((hkeep d hd).mono le_rfl (by omega)).read64_eq
    · intro d hd
      simp only [List.mem_append, List.mem_cons] at hd
      rcases hd with hd | rfl | rfl | hd
      · rw [((hkeep d (by simp [hd])).mono (by omega) (by omega)).read64_eq]
        exact h.sizes d (by simp [hd])
      · rw [AgreeOn.read64_eq fun x hlo hhi => hout x (by omega) (by omega)]
        exact h.sizes d (by simp)
      · rw [AgreeOn.read64_eq fun x hlo hhi => hout x (by dsimp only at *; omega) (by dsimp only at *; omega)]
        exact hs
      · rw [((hkeep d (by simp [hd])).mono (by omega) (by omega)).read64_eq]
        exact h.sizes d (by simp [hd])

theorem remove_spec (h : FreeList p.bytes p.header.head (pre ++ b :: post))
    (hp : Placed (pre ++ b :: post)) :
    ∃ q, remove (lastStart pre) b.start p = q ∧ FreeList q.bytes q.header.head (pre ++ post) ∧
      q.header = { p.header with head := q.header.head } ∧
      ∀ x, (lastStart pre = 0 ∨ x < lastStart pre ∨ lastStart pre + 8 ≤ x) → q.bytes x = p.bytes x := by
  refine ⟨_, rfl, ?_⟩
  rcases List.eq_nil_or_concat' pre with rfl | ⟨pre, c, rfl⟩
  · have hq : remove 0 b.start p =
        { p with header := { p.header with head := read64 p.bytes b.start } } := by
      unfold remove
      by_cases h0 : read64 p.bytes b.start = 0 <;> simp [getNextPointer, h0]
    rw [lastStart_nil, hq]
    exact ⟨⟨h.path.2, fun d hd => h.sizes d (List.mem_cons_of_mem _ hd)⟩, rfl, fun _ _ => rfl⟩
  · have hc0 : c.start ≠ 0 := hp.ne_zero c (by simp)
    have hq : remove c.start b.start p =
        { p with bytes := write64 p.bytes c.start (read64 p.bytes b.start) } := by
      simp [remove, hc0, getNextPointer, setNextPointer]
    rw [List.append_assoc, List.singleton_append] at h hp ⊢
    rw [lastStart_concat, hq]
    have hapart : ∀ d ∈ pre ++ b :: post, NodesApart c.start d.start := fun d hd => hp.apart_of_ne hd
    refine ⟨⟨?_, ?_⟩, rfl, fun x hx => write64_apply (hx.resolve_left hc0)⟩
    · have hpath := h.path
      rw [List.map_append, List.map_cons, List.map_cons] at hpath
      rw [List.map_append, List.map_cons]
      refine hpath.remove_after (read64_write64_same (read64_lt _ _)) fun a ha => ?_
      rw [← List.map_append] at ha
      obtain ⟨d, hd, rfl⟩ := List.mem_map.mp ha
      have hcd := hapart d (List.perm_middle.mem_iff.mpr (List.mem_cons_of_mem _ hd))
      simp only [NodesApart] at hcd
      exact read64_write64_of_disjoint (by omega)
    · intro d hd
      rcases List.mem_cons.mp (List.perm_middle.mem_iff.mp hd) with rfl | hd
      · rw [read64_write64_of_disjoint (by omega)]
        exact h.sizes d (by simp)
      · have hd := List.perm_middle.mem_iff.mpr (List.mem_cons_of_mem b hd)
        have hcd := hapart d hd
        simp only [NodesApart] at hcd
        rw [read64_write64_of_disjoint (by omega)]
        exact h.sizes d (List.perm_middle.mem_iff.mpr (List.mem_cons_of_mem c hd))

theorem FreeList.setBlockSize (h : FreeList m head (pre ++ b :: post))
    (hp : Placed (pre ++ b :: post)) (hs : s < 2^64) :
    FreeList (setBlockSize m b.start s) head (pre ++ ⟨b.start, s⟩ :: post) := by
  have hapart : ∀ d ∈ pre ++ post, NodesApart b.start d.start := fun d hd => hp.apart_of_ne hd
  refine ⟨?_, ?_⟩
  · have he : (pre ++ ⟨b.start, s⟩ :: post).map Block.start = (pre ++ b :: post).map Block.start := by
      simp
    rw [he]
    refine h.path.congr fun a ha => ?_
    obtain ⟨d, hd, rfl⟩ := List.mem_map.mp ha
    refine read64_write64_of_disjoint ?_
    rcases List.mem_cons.mp (List.perm_middle.mem_iff.mp hd) with rfl | hd
    · omega
    · have := hapart d hd
      simp only [NodesApart] at this
      omega
  · intro d hd
    rcases List.mem_cons.mp (List.perm_middle.mem_iff.mp hd) with rfl | hd
    · exact read64_write64_same hs
    · have := hapart d hd
      simp only [NodesApart] at this
      rw [LogicalPageAnySize.setBlockSize, read64_write64_of_disjoint (by omega)]
      exact h.sizes d (List.perm_middle.mem_iff.mpr (List.mem_cons_of_mem b hd))

theorem calculatePaddingNeeded_lt (a : Nat) : calculatePaddingNeeded a minAlignmentSize < 16 := by
  by_cases hr : add64 a nodeSize % 16 = 0
  · simp [calculatePaddingNeeded, minAlignmentSize, hr]
  · simp only [calculatePaddingNeeded, minAlignmentSize, ne_eq, hr, not_false_eq_true, if_true]
    omega

theorem calculatePaddingNeeded_mod {a : Nat} (h : a + 16 < 2^64) :
    (a + calculatePaddingNeeded a minAlignmentSize + 16) % 16 = 0 := by
  by_cases hr : (a + 16) % 16 = 0
  · simp only [calculatePaddingNeeded, minAlignmentSize, nodeSize, add64_of_lt h, ne_eq, hr,
      not_true_eq_false, if_false, Nat.add_zero]
  · simp only [calculatePaddingNeeded, minAlignmentSize, nodeSize, add64_of_lt h, ne_eq, hr,
      not_false_eq_true, if_true]
    omega

/-- The block at a node can hold a payload of this size behind its padding and header. -/
def Fits (size : Nat) (b : Block) : Prop :=
  size + 16 + calculatePaddingNeeded b.start minAlignmentSize ≤ b.size

theorem requiredSpace_eq {size a : Nat} (hs : size + 32 < 2^64) :
    add64 (add64 size nodeSize) (calculatePaddingNeeded a minAlignmentSize) =
      size + 16 + calculatePaddingNeeded a minAlignmentSize := by
  have := calculatePaddingNeeded_lt a
  simp only [nodeSize]
  rw [add64_of_lt (by omega : size + 16 < 2^64), add64_of_lt (by omega)]

theorem findInternal_zero (size alignment fuel previous : Nat) :
    findInternal m size alignment (fuel+1) 0 previous = some none := by
  rw [findInternal, if_pos rfl]

/-- The search stops at the first node that fits, or runs through the whole list. -/
theorem findInternal_spec {size fuel iterator : Nat} (hs : size + 32 < 2^64)
    (hpath : Path (read64 m) iterator (post.map Block.start) 0)
    (hsizes : ∀ b ∈ post, read64 m (b.start + 8) = b.size) (hne : ∀ b ∈ post, b.start ≠ 0)
    (hfuel : post.length < fuel) :
    findInternal m size minAlignmentSize fuel iterator (lastStart pre) = some none ∧
        (∀ b ∈ post, ¬ Fits size b) ∨
      ∃ l b r, post = l ++ b :: r ∧ Fits size b ∧ (∀ c ∈ l, ¬ Fits size c) ∧
        findInternal m size minAlignmentSize fuel iterator (lastStart pre) =
          some (some (lastStart (pre ++ l), b.start, calculatePaddingNeeded b.start minAlignmentSize)) := by
  induction post generalizing pre fuel iterator with
  | nil =>
    obtain rfl := path_nil.mp hpath
    obtain ⟨fuel, rfl⟩ := Nat.exists_eq_succ_of_ne_zero (by omega : fuel ≠ 0)
    exact .inl ⟨findInternal_zero .., by simp⟩
  | cons b post ih =>
    obtain ⟨rfl, hpath⟩ := hpath
    obtain ⟨fuel, rfl⟩ := Nat.exists_eq_succ_of_ne_zero (by omega : fuel ≠ 0)
    have hb0 := hne b List.mem_cons_self
    have hstep : findInternal m size minAlignmentSize (fuel+1) b.start (lastStart pre) =
        if size + 16 + calculatePaddingNeeded b.start minAlignmentSize ≤ b.size then
          some (some (lastStart pre, b.start, calculatePaddingNeeded b.start minAlignmentSize))
        else findInternal m size minAlignmentSize fuel (read64 m b.start)
          (if read64 m b.start ≠ 0 then b.start else lastStart pre) := by
      rw [findInternal, if_neg hb0]
      dsimp only
      rw [requiredSpace_eq hs, getBlockSize, hsizes b List.mem_cons_self, getNextPointer]
    rw [Nat.succ_eq_add_one, hstep]
    by_cases hfit : Fits size b
    · exact .inr ⟨[], b, post, rfl, hfit, by simp, by simp [if_pos (show _ ≤ _ from hfit)]⟩
    · rw [if_neg (show ¬ _ ≤ _ from hfit)]
      have hfuel' : post.length < fuel := by simpa using hfuel
      by_cases h0 : read64 m b.start = 0
      · -- the list ends here, so the tracked previous node no longer matters
        rw [h0] at hpath
        have hnil : post.map Block.start = [] := hpath.eq_of_end fun hm => by
          obtain ⟨c, hc, hc0⟩ := List.mem_map.mp hm
          exact hne c (List.mem_cons_of_mem _ hc) hc0
        obtain rfl := List.map_eq_nil_iff.mp hnil
        obtain ⟨fuel, rfl⟩ := Nat.exists_eq_succ_of_ne_zero (by omega : fuel ≠ 0)
        rw [h0]
        exact .inl ⟨findInternal_zero .., by simpa using hfit⟩
      · have hrest := @ih (pre ++ [b]) fuel (read64 m b.start) hpath
          (fun c hc => hsizes c (List.mem_cons_of_mem _ hc))
          (fun c hc => hne c (List.mem_cons_of_mem _ hc)) hfuel'
        rw [lastStart_concat] at hrest
        rw [if_pos h0]
        rcases hrest with ⟨he, hno⟩ | ⟨l, c, r, rfl, hc, hno, he⟩
        · exact .inl ⟨he, by simpa using ⟨hfit, hno⟩⟩
        · exact .inr ⟨b :: l, c, r, rfl, hc, by simpa using ⟨hfit, hno⟩, by simpa using he⟩

/-- Insertion goes behind the last of the leading nodes at or below the pointer. -/
theorem insertPosition_spec {ptr fuel iterator : Nat}
    (hpath : Path (read64 m) iterator (post.map Block.start) 0) (hne : ∀ b ∈ post, b.start ≠ 0)
    (hfuel : post.length < fuel) :
    ∃ l r, post = l ++ r ∧ (∀ b ∈ l, b.start ≤ ptr) ∧ (∀ b, r.head? = some b → ptr < b.start) ∧
      insertPosition m ptr fuel iterator (lastStart pre) = some (lastStart (pre ++ l)) := by
  induction post generalizing pre fuel iterator with
  | nil =>
    obtain rfl := path_nil.mp hpath
    obtain ⟨fuel, rfl⟩ := Nat.exists_eq_succ_of_ne_zero (by omega : fuel ≠ 0)
    exact ⟨[], [], rfl, by simp, by simp, by simp [insertPosition]⟩
  | cons b post ih =>
    obtain ⟨rfl, hpath⟩ := hpath
    obtain ⟨fuel, rfl⟩ := Nat.exists_eq_succ_of_ne_zero (by omega : fuel ≠ 0)
    have hb0 := hne b List.mem_cons_self
    rw [Nat.succ_eq_add_one, insertPosition, if_neg hb0]
    by_cases hlt : ptr < b.start
    · exact ⟨[], b :: post, rfl, by simp, by simpa using hlt, by simp [hlt]⟩
    · obtain ⟨l, r, rfl, hl, hr, he⟩ := @ih (pre ++ [b]) fuel (read64 m b.start) hpath
        (fun c hc => hne c (List.mem_cons_of_mem _ hc)) (by simpa using hfuel)
      rw [lastStart_concat] at he
      rw [if_neg hlt, getNextPointer]
      exact ⟨b :: l, r, rfl, by simpa using ⟨Nat.not_lt.mp hlt, hl⟩, hr, by simpa using he⟩

end
end Metamalloc.Pages.LogicalPageAnySize
