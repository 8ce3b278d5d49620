import Metamalloc.Segments.SegmentInvariant

/-! Deallocation on a segment: both lookups find the page of an allocation, and an
emptied page leaves the list when there are more pages than the threshold. -/
namespace Metamalloc.Segments
open Library.Word64 Library.ByteMemory Library.LinkedList Pages

/-- What `deallocate_internal` does to an allocation of page `a`, with `rest` left on the page. -/
structure Freed (T : SegmentType) (L : PageLaws T.page) (s : Segment) (mem : Memory) (l : List Nat)
    (owned : Nat → List Allocation) (a : Nat) (rest : List Allocation) (s' : Segment) (mem' : Memory)
    (l' : List Nat) : Prop where
  inv : SegmentInv T L s' mem' l' (Function.update owned a rest)
  config : s'.toSegmentConfig = s.toSegmentConfig
  queue : s'.deallocationQueue = s.deallocationQueue
  within : Within mem mem' (region s.logicalPageSize l)
  payload : ∀ c, Spares mem mem' (Function.update owned a rest c)
  created : mem'.created = mem.created
  flags : ∀ b, (mem'.pages b).canBeRecycled = true →
    (mem.pages b).canBeRecycled = true ∨ b = a ∧ rest = []
  outcome : (rest = [] ∧ T.recycling = .immediate ∧ s.pageRecyclingThreshold < s.logicalPageCount) ∧
      l' = l.erase a ∧ mem'.released = (a, s.logicalPageSize) :: mem.released ∨
    ¬ (rest = [] ∧ T.recycling = .immediate ∧ s.pageRecyclingThreshold < s.logicalPageCount) ∧
      l' = l ∧ mem'.released = mem.released

/-- A deallocation of the pointer puts the block of an allocation of page `a` back. -/
structure Frees {T : SegmentType} (L : PageLaws T.page) (s : Segment) (mem : Memory) (a : Nat)
    (x : Allocation) (ptr : Nat) : Prop where
  behind : a + T.page.objectSize ≤ ptr
  onPage : ptr < a + s.logicalPageSize
  block : L.block ptr (mem.page a) = L.block x.ptr (mem.page a)

/-- The bytes behind the pointer are free on their page, and its used size is lower by their block. -/
structure BackInStore {T : LogicalPageType} (L : PageLaws T) (a ptr size : Nat) (mem mem' : Memory) : Prop where
  used : (mem'.pages a).usedSize + (L.block ptr (mem.page a)).2 = (mem.pages a).usedSize
  free : ∃ nodes node, Path (read64 mem'.bytes) (mem'.pages a).head nodes 0 ∧ node ∈ nodes ∧
    node ≤ ptr ∧ ptr + size ≤ node + L.freeSize (mem'.pages a).sizeClass mem'.bytes node

namespace SegmentInv
variable {T : SegmentType} {L : PageLaws T.page} {s s' : Segment} {mem mem' : Memory}
  {l l₁ l₂ : List Nat} {owned owned' : Nat → List Allocation} {a b n size fuel ptr : Nat}
  {x : Allocation} {p : Page} {live live' rest : List Allocation}

theorem setPage (h : SegmentInv T L s mem l owned) (ha : a ∈ l) (hc : Confined (mem.page a) p live)
    (hp : L.Inv p live') : SegmentInv T L s (mem.setPage a p) l (Function.update owned a live') := by
  refine h.update (fun c hcl => ?_) (fun c hcl => ?_) (fun c hcl => ?_)
  · by_cases hca : c = a
    · subst hca
      rw [Memory.pages_setPage_self]
      exact .of_frame hc.frame
    · rw [Memory.pages_setPage_of_ne _ _ hca]
      exact .refl _
  · by_cases hca : c = a
    · subst hca
      rw [Function.update_self, Memory.page, Memory.pages_setPage_self]
      exact hp
    · rw [Function.update_of_ne hca]
      refine L.congr (h.page c hcl) ?_ fun b hlo hhi _ => hc.outside b ?_
      · rw [Memory.pages_setPage_of_ne _ _ hca]
        exact .refl _
      · have hap := h.apart_of_ne hcl ha hca
        have hend := h.bufferEnd hcl
        have hstart := (h.frame c hcl).1
        have hend' := h.bufferEnd ha
        have hstart' := (h.frame a ha).1
        simp only [Memory.page, PagesApart] at hlo hhi hap ⊢
        omega
  · have hca : c ≠ a := fun e => hcl (e ▸ ha)
    rw [Function.update_of_ne hca]
    exact h.outside c hcl

theorem within_setPage (h : SegmentInv T L s mem l owned) (ha : a ∈ l)
    (hc : Confined (mem.page a) p live) :
    Within mem (mem.setPage a p) (region s.logicalPageSize l) := by
  refine ⟨fun b hb => ?_, fun b hb => hc.outside b ?_⟩
  · have hba : b ≠ a := fun e => hb (e ▸ region_self h.pageSize_pos ha)
    exact Memory.pages_setPage_of_ne _ _ hba
  · have hend := h.bufferEnd ha
    have hstart := (h.frame a ha).1
    by_contra hin
    refine hb ⟨a, ha, ?_⟩
    simp only [Memory.page] at hin
    omega

theorem spares_setPage (h : SegmentInv T L s mem l owned) (ha : a ∈ l) (hc : Confined (mem.page a) p live)
    (c : Nat) : Spares mem (mem.setPage a p) (Function.update owned a live c) := by
  intro y hy b hb
  by_cases hca : c = a
  · subst hca
    rw [Function.update_self] at hy
    exact hc.payload y hy b hb
  · rw [Function.update_of_ne hca] at hy
    refine hc.outside b ?_
    have hin := h.owned_inside hy
    have hap := h.apart_of_ne (h.mem_of_owned hy) ha hca
    have hend := h.bufferEnd ha
    have hstart := (h.frame a ha).1
    simp only [Memory.page, PagesApart, Allocation.Holds] at hap hb ⊢
    omega

theorem setFlags (h : SegmentInv T L s mem l owned) (ha : a ∈ l) (h' : LogicalPageHeader)
    (hs : (mem.pages a).SameStore h') (hn : h'.nextLogicalPagePtr = (mem.pages a).nextLogicalPagePtr)
    (hp : h'.prevLogicalPagePtr = (mem.pages a).prevLogicalPagePtr) :
    SegmentInv T L s (mem.setHeader a h') l owned := by
  refine h.update (fun c _ => ?_) (fun c hcl => ?_) h.outside
  · by_cases hca : c = a
    · subst hca
      rw [Memory.pages_setHeader_self]
      exact ⟨hn, hp, hs.sizeClass, hs.start, hs.size⟩
    · rw [Memory.pages_setHeader_of_ne _ _ hca]
      exact .refl _
  · by_cases hca : c = a
    · subst hca
      refine L.congr (h.page c hcl) ?_ fun _ _ _ _ => rfl
      rw [Memory.pages_setHeader_self]
      exact hs
    · refine L.congr (h.page c hcl) ?_ fun _ _ _ _ => rfl
      rw [Memory.pages_setHeader_of_ne _ _ hca]
      exact .refl _

theorem of_relinked (h : Relinked mem mem') (ha : L.Inv (mem.page a) live) :
    L.Inv (mem'.page a) live := by
  obtain ⟨next, previous, he⟩ := h.pages a
  refine L.congr ha ?_ fun b _ _ _ => congrFun h.bytes b
  rw [he]
  exact ⟨rfl, rfl, rfl, rfl, rfl⟩

theorem removeLogicalPage (h : SegmentInv T L s mem (l₁ ++ a :: l₂) owned) (ha : owned a = []) :
    SegmentInv T L (Segment.removeLogicalPage a s mem).1 (Segment.removeLogicalPage a s mem).2
      (l₁ ++ l₂) owned := by
  have hr := @relinked_removeLogicalPage mem s a
  have hc := (@config_removeLogicalPage mem s a).1
  have hsub : ∀ c ∈ l₁ ++ l₂, c ∈ l₁ ++ a :: l₂ := fun c hc =>
    List.perm_middle.mem_iff.mpr (List.mem_cons_of_mem _ hc)
  have hP : (Segment.removeLogicalPage a s mem).1.logicalPageSize = s.logicalPageSize := by rw [hc]
  refine ⟨h.listed.removeLogicalPage, hc ▸ h.geometry, ?_, ?_, ?_, ?_, ?_, ?_⟩
  · rw [hP]
    exact fun c hcl => h.inside c (hsub c hcl)
  · rw [hP]
    exact fun hal c hcl => h.aligned hal c (hsub c hcl)
  · rw [hP]
    exact h.apart.sublist (by simp)
  · intro c hcl
    obtain ⟨next, previous, he⟩ := hr.pages c
    rw [he, hc]
    exact h.frame c (hsub c hcl)
  · exact fun c hcl => of_relinked hr (h.page c (hsub c hcl))
  · intro c hcl
    by_cases hca : c = a
    · rw [hca]
      exact ha
    · refine h.outside c fun hm => hcl ?_
      exact (List.mem_cons.mp (List.perm_middle.mem_iff.mp hm)).resolve_left hca

theorem neighbours (h : SegmentInv T L s mem l owned) (ha : a ∈ l) :
    (mem.getPrevious a ≠ 0 → region s.logicalPageSize l (mem.getPrevious a)) ∧
      (mem.getNext a ≠ 0 → region s.logicalPageSize l (mem.getNext a)) := by
  have ha0 := h.listed.ne_zero ha
  have hp := (h.listed.ring.next_prev (List.mem_cons_of_mem _ ha)).1
  have hn := (h.listed.ring.prev_next (List.mem_cons_of_mem _ ha)).1
  rw [prevOf_of_ne ha0] at hp
  rw [nextOf_of_ne ha0] at hn
  exact ⟨fun h0 => region_self h.pageSize_pos ((List.mem_cons.mp hp).resolve_left h0),
    fun h0 => region_self h.pageSize_pos ((List.mem_cons.mp hn).resolve_left h0)⟩

theorem recycleLogicalPage_eq : Segment.recycleLogicalPage a s mem =
    ((Segment.removeLogicalPage a s mem).1, (Segment.removeLogicalPage a s mem).2.releaseToSystem a
      (Segment.removeLogicalPage a s mem).1.logicalPageSize) := rfl

theorem bytes_recycleLogicalPage : (Segment.recycleLogicalPage a s mem).2.bytes = mem.bytes := by
  rw [recycleLogicalPage_eq]
  exact relinked_removeLogicalPage.bytes

theorem recycleLogicalPage (h : SegmentInv T L s mem l owned) (ha : a ∈ l) (he : owned a = []) :
    ∃ s' mem', Segment.recycleLogicalPage a s mem = (s', mem') ∧
      SegmentInv T L s' mem' (l.erase a) owned ∧ s'.toSegmentConfig = s.toSegmentConfig ∧
      s'.deallocationQueue = s.deallocationQueue ∧
      Within mem mem' (region s.logicalPageSize l) ∧ mem'.created = mem.created ∧
      mem'.released = (a, s.logicalPageSize) :: mem.released ∧
      ∀ b, (mem'.pages b).canBeRecycled = (mem.pages b).canBeRecycled := by
  have hc := @config_removeLogicalPage mem s a
  have hr := @relinked_removeLogicalPage mem s a
  have hw := @within_removeLogicalPage mem _ s a (h.neighbours ha).1 (h.neighbours ha).2
  obtain ⟨l₁, l₂, rfl⟩ := List.append_of_mem ha
  have herase := erase_middle h.listed.ring.nodup_list
  have hinv := h.removeLogicalPage he
  refine ⟨_, _, recycleLogicalPage_eq, ?_, hc.1, hc.2, ⟨hw.pages, hw.bytes⟩, hr.created, ?_, fun b => ?_⟩
  · rw [herase]
    exact hinv.releaseToSystem _ _
  · rw [Memory.releaseToSystem, hr.released, hc.1]
  · obtain ⟨next, previous, he⟩ := hr.pages b
    refine LogicalPageHeader.canBeRecycled_congr ?_
    rw [Memory.releaseToSystem, he]

theorem frees_self (h : SegmentInv T L s mem l owned) (hx : x ∈ owned a) : Frees L s mem a x x.ptr := by
  have hin := h.owned_inside hx
  exact ⟨hin.2.1, by omega, rfl⟩

theorem ownsPointer (h : SegmentInv T L s mem l owned) (ha : a ∈ l) (hf : Frees L s mem a x ptr) :
    (mem.pages a).ownsPointer ptr = true := by
  have hend := h.bufferEnd ha
  have hlt := h.inside a ha
  refine (LogicalPageHeader.ownsPointer_eq_true (by omega)).mpr ?_
  rw [(h.frame a ha).1, hend]
  exact ⟨hf.behind, hf.onPage⟩

theorem deallocateOnPage (h : SegmentInv T L s mem l owned) (ha : a ∈ l)
    (hp : (owned a).Perm (x :: rest)) (hfrees : Frees L s mem a x ptr) :
    ∃ s' mem' l', Segment.deallocateOnPage T a ptr s mem = some (s', mem') ∧
      Freed T L s mem l owned a rest s' mem' l' := by
  obtain ⟨p, hd, hinv, hconf, _⟩ :=
    L.deallocate_spec (L.perm (h.page a ha) hp) (h.ownsPointer ha hfrees) hfrees.block
  have hset := h.setPage ha hconf hinv
  have hwithin := h.within_setPage ha hconf
  have hspares := h.spares_setPage ha hconf
  have hused : p.header.usedSize = 0 ↔ rest = [] := L.used_eq_zero hinv
  have hself : (mem.setPage a p).pages a = p.header := Memory.pages_setPage_self ..
  have hrec : ∀ b, ((mem.setPage a p).pages b).canBeRecycled = (mem.pages b).canBeRecycled := by
    intro b
    apply LogicalPageHeader.canBeRecycled_congr
    by_cases hba : b = a
    · subst hba
      rw [hself]
      exact hconf.frame.flags
    · rw [Memory.pages_setPage_of_ne _ _ hba]
  unfold Segment.deallocateOnPage
  rw [hd]
  dsimp only
  by_cases h0 : p.header.usedSize = 0
  · rw [if_pos h0]
    have hrest : rest = [] := hused.mp h0
    have hset' := hset.setFlags ha p.header.markAsNonUsed
      (by rw [hself]; exact LogicalPageHeader.sameStore_markAsNonUsed _)
      (by rw [hself]; rfl) (by rw [hself]; rfl)
    have hwithin' := hwithin.trans
      (@within_setHeader (mem.setPage a p) _ a p.header.markAsNonUsed (region_self h.pageSize_pos ha))
    have hrec' : ∀ b, (((mem.setPage a p).setHeader a p.header.markAsNonUsed).pages b).canBeRecycled =
        true → (mem.pages b).canBeRecycled = true ∨ b = a ∧ rest = [] := by
      intro b hb
      by_cases hba : b = a
      · exact .inr ⟨hba, hrest⟩
      · rw [Memory.pages_setHeader_of_ne _ _ hba] at hb
        exact .inl (hrec b ▸ hb)
    by_cases hcond : T.recycling = .immediate ∧ s.pageRecyclingThreshold < s.logicalPageCount
    · rw [if_pos hcond]
      have hempty : Function.update owned a rest a = [] := by rw [Function.update_self, hrest]
      obtain ⟨s', mem', he, hinv', hc, hq, hw, hcr, hrel, hfl⟩ := hset'.recycleLogicalPage ha hempty
      have hbytes : mem'.bytes = (mem.setPage a p).bytes := by
        have := @bytes_recycleLogicalPage s ((mem.setPage a p).setHeader a p.header.markAsNonUsed) a
        rwa [he] at this
      rw [he]
      refine ⟨s', mem', l.erase a, rfl, hinv', hc, hq, hwithin'.trans hw,
        fun c => (hspares c).trans (.of_bytes hbytes _), hcr, ?_, .inl ⟨⟨hrest, hcond⟩, rfl, hrel⟩⟩
      exact fun b hb => hrec' b (hfl b ▸ hb)
    · rw [if_neg hcond]
      exact ⟨_, _, l, rfl, hset', rfl, rfl, hwithin', hspares, rfl, hrec',
        .inr ⟨fun hh => hcond hh.2, rfl, rfl⟩⟩
  · rw [if_neg h0]
    refine ⟨_, _, l, rfl, hset, rfl, rfl, hwithin, hspares, rfl, ?_,
      .inr ⟨fun hh => h0 (hused.mpr hh.1), rfl, rfl⟩⟩
    exact fun b hb => .inl (hrec b ▸ hb)

/-- What a deallocation has done to its page: released it, or put the block back. -/
theorem deallocateOnPage_effect (h : SegmentInv T L s mem l owned) (ha : a ∈ l)
    (hp : (owned a).Perm (x :: rest)) (hfrees : Frees L s mem a x ptr)
    (he : Segment.deallocateOnPage T a ptr s mem = some (s', mem')) :
    mem'.released = (a, s.logicalPageSize) :: mem.released ∨
      mem'.released = mem.released ∧ BackInStore L a x.ptr x.size mem mem' := by
  obtain ⟨s₁, mem₁, l', he', hfreed⟩ := h.deallocateOnPage ha hp hfrees
  rw [he] at he'
  cases he'
  rcases hfreed.outcome with ⟨_, _, hreleased⟩ | ⟨hkeep, _, hreleased⟩
  · exact .inl hreleased
  refine .inr ⟨hreleased, ?_⟩
  have hinv := L.perm (h.page a ha) hp
  have howns := h.ownsPointer ha hfrees
  obtain ⟨p, hd, hinv', hconf, hused⟩ := L.deallocate_spec hinv howns hfrees.block
  obtain ⟨nodes, node, hpath, hnode, hlo, hhi⟩ := L.deallocate_frees hinv howns hfrees.block hd
  rw [hfrees.block] at hused
  have hself : (mem.setPage a p).pages a = p.header := Memory.pages_setPage_self ..
  rw [Segment.deallocateOnPage, hd] at he
  dsimp only at he
  split at he
  · rename_i h0
    rw [if_neg fun hc => hkeep ⟨(L.used_eq_zero hinv').mp h0, hc⟩] at he
    cases he
    have hflags : ((mem.setPage a p).setHeader a p.header.markAsNonUsed).pages a = p.header.markAsNonUsed :=
      Memory.pages_setHeader_self ..
    constructor
    · rw [hflags]
      exact hused
    · rw [hflags]
      exact ⟨nodes, node, hpath, hnode, hlo, hhi⟩
  · cases he
    constructor
    · rw [hself]
      exact hused
    · rw [hself]
      exact ⟨nodes, node, hpath, hnode, hlo, hhi⟩

theorem getLogicalPageFromAddress (h : SegmentInv T L s mem l owned)
    (hal : T.bufferAlignedToLogicalPageSize = true) (ha : a ∈ l) (hlo : a ≤ ptr)
    (hhi : ptr < a + s.logicalPageSize) :
    Segment.getLogicalPageFromAddress ptr s.logicalPageSize = a := by
  have hlt := h.inside a ha
  obtain ⟨k, hk, hP⟩ := h.geometry.powerOfTwo hal
  have hdvd := h.aligned hal a ha
  rw [hP] at hdvd hhi hlt
  rw [Segment.getLogicalPageFromAddress, hP]
  exact and_mask64_of_mem hk (by omega) hdvd hlo hhi

/-- A search along pages that do not hold the address goes on to the one that does. -/
theorem findLogicalPage_path {address iter : Nat} {pre post : List Nat}
    (hpath : Path mem.getNext iter (pre ++ a :: post) 0) (h0 : ∀ c ∈ pre ++ a :: post, c ≠ 0)
    (hpre : ∀ c ∈ pre, ¬ (c ≤ address ∧ address < add64 c n))
    (ha : a ≤ address ∧ address < add64 a n) (hfuel : pre.length < fuel) :
    Segment.findLogicalPage n address mem fuel iter = some a := by
  induction pre generalizing iter fuel with
  | nil =>
    obtain ⟨fuel, rfl⟩ := Nat.exists_eq_succ_of_ne_zero (by omega : fuel ≠ 0)
    obtain ⟨rfl, _⟩ := hpath
    rw [Segment.findLogicalPage, if_neg (h0 iter (by simp)), if_pos ha]
  | cons c pre ih =>
    obtain ⟨fuel, rfl⟩ := Nat.exists_eq_succ_of_ne_zero (by omega : fuel ≠ 0)
    obtain ⟨rfl, hpath⟩ := hpath
    rw [Segment.findLogicalPage, if_neg (h0 iter (by simp)), if_neg (hpre iter (by simp))]
    refine ih hpath (fun c hc => h0 c ?_) (fun c hc => hpre c (List.mem_cons_of_mem _ hc)) ?_
    · exact List.mem_cons_of_mem _ hc
    · rw [List.length_cons] at hfuel
      omega

theorem length_lt_walkLimit (h : SegmentInv T L s mem l owned) : l.length < walkLimit := by
  unfold walkLimit
  exact h.listed.length_lt

theorem findLogicalPage (h : SegmentInv T L s mem l owned) (ha : a ∈ l) {address : Nat}
    (hlo : a ≤ address) (hhi : address < a + s.logicalPageSize) :
    Segment.findLogicalPage s.logicalPageSize address mem walkLimit s.head = some a := by
  have hlen := h.length_lt_walkLimit
  obtain ⟨pre, post, rfl⟩ := List.append_of_mem ha
  rw [List.length_append, List.length_cons] at hlen
  refine findLogicalPage_path h.listed.paths.1 (fun c hc => h.listed.ne_zero hc) ?_ ?_ (by omega)
  · intro c hc
    have hcl : c ∈ pre ++ a :: post := List.mem_append_left _ hc
    have hca : c ≠ a := fun e =>
      (List.nodup_append.mp h.listed.ring.nodup_list).2.2 c hc a List.mem_cons_self e
    have hap := h.apart_of_ne hcl ha hca
    rw [add64_of_lt (h.inside c hcl)]
    simp only [PagesApart] at hap
    omega
  · rw [add64_of_lt (h.inside a ha)]
    exact ⟨hlo, hhi⟩

/-- A search for an address on no listed page ends with null. -/
theorem findLogicalPage_eq_zero {address iter : Nat} (hpath : Path mem.getNext iter l 0)
    (h0 : ∀ c ∈ l, c ≠ 0) (hl : ∀ c ∈ l, ¬ (c ≤ address ∧ address < add64 c n)) (hfuel : l.length < fuel) :
    Segment.findLogicalPage n address mem fuel iter = some 0 := by
  induction l generalizing iter fuel with
  | nil =>
    obtain ⟨fuel, rfl⟩ := Nat.exists_eq_succ_of_ne_zero (by omega : fuel ≠ 0)
    rw [Segment.findLogicalPage, if_pos (path_nil.mp hpath)]
  | cons c l ih =>
    obtain ⟨fuel, rfl⟩ := Nat.exists_eq_succ_of_ne_zero (by omega : fuel ≠ 0)
    obtain ⟨rfl, hpath⟩ := hpath
    rw [Segment.findLogicalPage, if_neg (h0 iter List.mem_cons_self),
      if_neg (hl iter List.mem_cons_self)]
    refine ih hpath (fun c hc => h0 c (List.mem_cons_of_mem _ hc))
      (fun c hc => hl c (List.mem_cons_of_mem _ hc)) ?_
    rw [List.length_cons] at hfuel
    omega

theorem findLogicalPage_of_not_region (h : SegmentInv T L s mem l owned) {address : Nat}
    (hr : ¬ region s.logicalPageSize l address) :
    Segment.findLogicalPage s.logicalPageSize address mem walkLimit s.head = some 0 := by
  refine findLogicalPage_eq_zero h.listed.paths.1 (fun c hc => h.listed.ne_zero hc) (fun c hc hin => ?_)
    h.length_lt_walkLimit
  rw [add64_of_lt (h.inside c hc)] at hin
  exact hr ⟨c, hc, hin⟩

/-- Whichever lookup a segment uses, it is the page the address lies on. -/
theorem deallocateInternal_eq (h : SegmentInv T L s mem l owned) (ha : a ∈ l) (hlo : a ≤ ptr)
    (hhi : ptr < a + s.logicalPageSize) :
    Segment.deallocateInternal T ptr s mem = Segment.deallocateOnPage T a ptr s mem := by
  unfold Segment.deallocateInternal
  split
  · rename_i hal
    rw [Segment.deallocateFromAlignedLogicalPage, h.getLogicalPageFromAddress hal ha hlo hhi]
  · rw [Segment.deallocateBySearch, h.findLogicalPage ha hlo hhi]
    exact if_neg (h.listed.ne_zero ha)

theorem deallocateInternal (h : SegmentInv T L s mem l owned) (hp : (owned a).Perm (x :: rest))
    (hfrees : Frees L s mem a x ptr) :
    ∃ s' mem' l', Segment.deallocateInternal T ptr s mem = some (s', mem') ∧
      Segment.deallocateOnPage T a ptr s mem = some (s', mem') ∧
      Freed T L s mem l owned a rest s' mem' l' := by
  have ha : a ∈ l := h.mem_of_owned (hp.symm.subset List.mem_cons_self)
  have hlo := hfrees.behind
  obtain ⟨s', mem', l', he, hfreed⟩ := h.deallocateOnPage ha hp hfrees
  rw [h.deallocateInternal_eq ha (by omega) hfrees.onPage]
  exact ⟨s', mem', l', he, he, hfreed⟩

end SegmentInv
end Metamalloc.Segments
