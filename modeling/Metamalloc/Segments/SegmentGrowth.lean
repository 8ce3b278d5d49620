import Metamalloc.Segments.SegmentAllocation

/-! Growth of a segment by the buffers of the arena, and everything a call of
`allocate_internal` can do. -/
namespace Metamalloc.Segments
open Library.Word64 Library.ByteMemory Library.LinkedList Pages

section
variable {T : SegmentType} {L : PageLaws T.page} {s s' : Segment} {mem mem' : Memory}
  {l new new' : List Nat} {owned : Nat → List Allocation} {a b n k m t size last : Nat} {p : Page}

def newPages (pageSize b n : Nat) : List Nat := (List.range n).map fun i => b + i * pageSize

/-- A buffer for so many pages, apart from the pages already listed. -/
structure FreshBuffer (T : SegmentType) (c : SegmentConfig) (l : List Nat) (b n : Nat) : Prop where
  ne_zero : b ≠ 0
  inside : b + n * c.logicalPageSize < 2^64
  apart : ∀ a ∈ l, a + c.logicalPageSize ≤ b ∨ b + n * c.logicalPageSize ≤ a
  aligned : T.bufferAlignedToLogicalPageSize = true → c.logicalPageSize ∣ b

/-- The segment has taken pages over; they are empty and marked as used. -/
structure Grown (T : SegmentType) (L : PageLaws T.page) (s : Segment) (mem : Memory) (l : List Nat)
    (owned : Nat → List Allocation) (new : List Nat) (s' : Segment) (mem' : Memory) : Prop where
  inv : SegmentInv T L s' mem' (l ++ new) owned
  config : s'.toSegmentConfig = s.toSegmentConfig
  queue : s'.deallocationQueue = s.deallocationQueue
  lastUsed : s'.lastUsed = s.lastUsed
  within : Within mem mem' (region s.logicalPageSize (l ++ new))
  payload : ∀ c, Spares mem mem' (owned c)
  created : mem'.created = new.reverse ++ mem.created
  released : mem'.released = mem.released
  flags : ∀ b, (mem'.pages b).canBeRecycled = true → (mem.pages b).canBeRecycled = true ∧ b ∉ new

/-- Pages of the given size that lie apart from the listed ones. -/
def FreshPage (T : SegmentType) (c : SegmentConfig) (l : List Nat) (x : Nat) : Prop :=
  FreshBuffer T c l x 1

theorem FreshPage.not_mem (hx : FreshPage T s.toSegmentConfig l b) (hP : 0 < s.logicalPageSize) :
    b ∉ 0 :: l := by
  intro hm
  rcases List.mem_cons.mp hm with rfl | hm
  · exact hx.ne_zero rfl
  · have := hx.apart b hm
    omega

/-- The invariant with one page more, however it was linked. -/
theorem SegmentInv.placePage (h : SegmentInv T L s mem l owned)
    (hx : FreshPage T s.toSegmentConfig l b)
    (hcreate : T.page.create (b + T.page.objectSize) (s.logicalPageSize - T.page.objectSize)
      s.sizeClass mem.bytes = some p)
    (hlisted : Listed s' mem' (l ++ [b])) (hc : s'.toSegmentConfig = s.toSegmentConfig)
    (hr : Relinked (mem.placePage b p) mem') : SegmentInv T L s' mem' (l ++ [b]) owned := by
  have hobj := h.geometry.object_lt
  have hin := hx.inside
  rw [one_mul] at hin
  have hb := hx.not_mem h.pageSize_pos
  obtain ⟨hinv, _, _, hclass, hstart, hsize, hout⟩ := L.create_inv hcreate (by omega)
  have hP : s'.logicalPageSize = s.logicalPageSize := by rw [hc]
  have hself : (mem.placePage b p).pages b = p.header.markAsUsed := Memory.pages_setPage_self ..
  have hold : ∀ a ∈ l, a ≠ b ∧ (mem.placePage b p).pages a = mem.pages a := by
    intro a ha
    have hab : a ≠ b := fun e => hb (List.mem_cons_of_mem _ (e ▸ ha))
    exact ⟨hab, Memory.pages_setPage_of_ne _ _ hab⟩
  have hmem : ∀ a ∈ l ++ [b], a ∈ l ∨ a = b := fun a ha => by simpa using ha
  refine ⟨hlisted, hc ▸ h.geometry, ?_, ?_, ?_, ?_, ?_, ?_⟩
  · intro a ha
    rw [hP]
    rcases hmem a ha with ha | rfl
    · exact h.inside a ha
    · exact hin
  · intro hal a ha
    rw [hP]
    rcases hmem a ha with ha | rfl
    · exact h.aligned hal a ha
    · exact hx.aligned hal
  · rw [hP]
    refine List.pairwise_append.mpr ⟨h.apart, List.pairwise_singleton _ _, fun a ha c hc => ?_⟩
    rw [List.mem_singleton.mp hc]
    have hap := hx.apart a ha
    rwa [one_mul] at hap
  · intro a ha
    obtain ⟨next, previous, he⟩ := hr.pages a
    rw [he, hc]
    rcases hmem a ha with ha | rfl
    · rw [(hold a ha).2]
      exact h.frame a ha
    · rw [hself]
      exact ⟨hstart, hsize, hclass⟩
  · intro a ha
    refine SegmentInv.of_relinked hr ?_
    rcases hmem a ha with ha | rfl
    · refine L.congr (h.page a ha) ?_ fun c hlo hhi _ => hout c ?_
      · rw [(hold a ha).2]
        exact .refl _
      · have hap := hx.apart a ha
        have hend := h.bufferEnd ha
        have hst := (h.frame a ha).1
        simp only [Memory.page] at hlo hhi
        omega
    · have h0 : owned a = [] := h.outside a fun hm => hb (List.mem_cons_of_mem _ hm)
      rw [h0]
      refine L.congr hinv ?_ fun _ _ _ _ => rfl
      rw [hself]
      exact LogicalPageHeader.sameStore_markAsUsed _
  · intro a ha
    exact h.outside a fun hm => ha (List.mem_append_left _ hm)

theorem Grown.nil (h : SegmentInv T L s mem l owned) : Grown T L s mem l owned [] s mem :=
  ⟨by rwa [List.append_nil], rfl, rfl, rfl, .refl _ _, fun _ => .of_bytes rfl _, rfl, rfl,
    fun _ hb => ⟨hb, List.not_mem_nil⟩⟩

theorem Grown.trans {s'' : Segment} {mem'' : Memory} (h : Grown T L s mem l owned new s' mem')
    (h' : Grown T L s' mem' (l ++ new) owned new' s'' mem'') :
    Grown T L s mem l owned (new ++ new') s'' mem'' := by
  have hP : s'.logicalPageSize = s.logicalPageSize := by rw [h.config]
  refine ⟨?_, h'.config.trans h.config, h'.queue.trans h.queue, h'.lastUsed.trans h.lastUsed,
    ?_, fun c => (h.payload c).trans (h'.payload c), ?_, h'.released.trans h.released, fun b hb => ?_⟩
  · rw [← List.append_assoc]
    exact h'.inv
  · have hw := h'.within
    rw [hP, List.append_assoc] at hw
    refine (h.within.mono (region_mono fun a ha => ?_)).trans hw
    rw [← List.append_assoc]
    exact List.mem_append_left _ ha
  · rw [h'.created, h.created, List.reverse_append, List.append_assoc]
  · obtain ⟨h1, h2⟩ := h'.flags b hb
    obtain ⟨h3, h4⟩ := h.flags b h1
    exact ⟨h3, fun hm => (List.mem_append.mp hm).elim h4 h2⟩

theorem newPages_succ (P x m : Nat) : newPages P x (m+1) = x :: newPages P (x + P) m := by
  simp only [newPages, List.range_succ_eq_map, List.map_cons, List.map_map, Nat.zero_mul, Nat.add_zero]
  congr 1
  refine List.map_congr_left fun i _ => ?_
  simp only [Function.comp_apply, Nat.succ_mul]
  omega

theorem FreshBuffer.split (h : FreshBuffer T s.toSegmentConfig l b (m+1)) :
    FreshPage T s.toSegmentConfig l b ∧
      FreshBuffer T s.toSegmentConfig (l ++ [b]) (b + s.logicalPageSize) m := by
  have hin := h.inside
  have h0 := h.ne_zero
  rw [Nat.succ_mul] at hin
  refine ⟨⟨h0, by omega, fun a ha => ?_, h.aligned⟩, by omega, by omega, fun a ha => ?_, fun hal => ?_⟩
  · have hap := h.apart a ha
    rw [Nat.succ_mul] at hap
    omega
  · rcases List.mem_append.mp ha with ha | ha
    · have hap := h.apart a ha
      rw [Nat.succ_mul] at hap
      omega
    · rw [List.mem_singleton.mp ha]
      exact .inl le_rfl
  · exact (Nat.dvd_add_right (h.aligned hal)).mpr (dvd_refl _)

/-- A page made and linked behind the last one so far. -/
theorem grown_link (h : SegmentInv T L { s with tail := t } mem l owned) (ht : t ≠ 0)
    (hx : FreshPage T s.toSegmentConfig l b)
    (hcreate : T.page.create (b + T.page.objectSize) (s.logicalPageSize - T.page.objectSize)
      s.sizeClass mem.bytes = some p) :
    Grown T L { s with tail := t } mem l owned [b]
      { s with tail := b, logicalPageCount := add64 s.logicalPageCount 1 }
      (Segment.linkAfter t b (mem.placePage b p)) := by
  have hb := hx.not_mem h.pageSize_pos
  have hin := hx.inside
  have hobj := h.geometry.object_lt
  rw [one_mul] at hin
  have hinv := L.create_inv hcreate (by dsimp only at hobj; omega)
  have hold : ∀ a, a ≠ b → (mem.placePage b p).pages a = mem.pages a := fun a ha =>
    Memory.pages_setPage_of_ne _ _ ha
  have hself : (mem.placePage b p).pages b = p.header.markAsUsed := Memory.pages_setPage_self ..
  have hlisted : Listed { s with tail := b, logicalPageCount := add64 s.logicalPageCount 1 }
      (Segment.linkAfter t b (mem.placePage b p)) (l ++ [b]) := by
    refine h.listed.link ht hb (by omega) ?_ fun a ha => ?_
    · rw [Memory.getNext, hself]
      exact hinv.2.1
    · have hab : a ≠ b := fun e => hb (List.mem_cons_of_mem _ (e ▸ ha))
      rw [Memory.getNext, Memory.getPrevious, hold a hab]
      exact ⟨rfl, rfl⟩
  have htl : t ∈ l := (List.mem_cons.mp (h.listed.ring.next_prev List.mem_cons_self).1).resolve_left ht
  have hrt : region s.logicalPageSize (l ++ [b]) t :=
    region_self h.pageSize_pos (List.mem_append_left _ htl)
  have hrb : region s.logicalPageSize (l ++ [b]) b := region_self h.pageSize_pos (by simp)
  refine ⟨h.placePage hx hcreate hlisted rfl relinked_linkAfter, rfl, rfl, rfl, ?_,
    fun c y hy e hey => hinv.2.2.2.2.2.2 e ?_, rfl, rfl, ?_⟩
  · refine Within.trans ⟨fun a ha => hold a ?_, fun c hc => hinv.2.2.2.2.2.2 c ?_⟩
      (within_linkAfter hrt hrb)
    · rintro rfl
      exact ha hrb
    · by_contra hcb
      refine hc ⟨b, by simp, ?_⟩
      dsimp only at hobj ⊢
      omega
  · -- what was given out lies on the pages listed before
    have hy' := h.owned_inside hy
    have hap := hx.apart c (h.mem_of_owned hy)
    simp only [Allocation.Holds] at hey
    dsimp only at hy' hobj
    omega
  · intro c hc
    obtain ⟨next, previous, he⟩ := (@relinked_linkAfter (mem.placePage b p) t b).pages c
    have hflags : ((Segment.linkAfter t b (mem.placePage b p)).pages c).canBeRecycled =
        ((mem.placePage b p).pages c).canBeRecycled :=
      LogicalPageHeader.canBeRecycled_congr (by rw [he])
    rw [hflags] at hc
    by_cases hcb : c = b
    · rw [hcb, hself, LogicalPageHeader.canBeRecycled_markAsUsed] at hc
      cases hc
    · rw [hold c hcb] at hc
      exact ⟨hc, by simpa using hcb⟩

theorem growRest_spec (h : SegmentInv T L { s with tail := t } mem l owned) (ht : t ≠ 0)
    (hfresh : FreshBuffer T s.toSegmentConfig l (b + k * s.logicalPageSize) m)
    (hok : ∀ i m', (T.page.create (b + i * s.logicalPageSize + T.page.objectSize)
      (s.logicalPageSize - T.page.objectSize) s.sizeClass m').isSome) :
    ∃ last s' mem', Segment.growRest T b (List.range' k m) t s mem = (some last, s', mem') ∧
      Grown T L { s with tail := t } mem l owned (newPages s.logicalPageSize (b + k * s.logicalPageSize) m)
        { s' with tail := last } mem' := by
  induction m generalizing k t s mem l with
  | zero => exact ⟨t, s, mem, rfl, .nil h⟩
  | succ m ih =>
    obtain ⟨hx, hrest⟩ := hfresh.split
    have hin := hx.inside
    rw [one_mul] at hin
    have hobj := h.geometry.object_lt
    dsimp only at hobj
    obtain ⟨p, hp⟩ := Option.isSome_iff_exists.mp (hok k mem.bytes)
    have haddr : add64 b (mul64 k s.logicalPageSize) = b + k * s.logicalPageSize := by
      rw [mul64_of_lt (by omega), add64_of_lt (by omega)]
    have hcreate : Segment.createNewLogicalPage T b (b + k * s.logicalPageSize) s mem =
        (true, { s with logicalPageCount := add64 s.logicalPageCount 1 },
          mem.placePage (b + k * s.logicalPageSize) p) := by
      rw [Segment.createNewLogicalPage, add64_of_lt (by omega), sub64_of_le hobj.le (by omega), hp]
    have hg := grown_link h ht hx hp
    have hk : b + k * s.logicalPageSize + s.logicalPageSize = b + (k + 1) * s.logicalPageSize := by
      rw [Nat.succ_mul]
      omega
    rw [hk] at hrest
    obtain ⟨last, s', mem', he, hg'⟩ := @ih
      { s with logicalPageCount := add64 s.logicalPageCount 1 }
      (Segment.linkAfter t (b + k * s.logicalPageSize) (mem.placePage (b + k * s.logicalPageSize) p))
      (l ++ [b + k * s.logicalPageSize]) (k + 1) (b + k * s.logicalPageSize) hg.inv hx.ne_zero hrest hok
    refine ⟨last, s', mem', ?_, ?_⟩
    · rw [List.range'_succ, Segment.growRest, haddr, hcreate]
      exact he
    · rw [newPages_succ, hk]
      exact hg.trans hg'

theorem grown_first (h : SegmentInv T L s mem [] owned) (hx : FreshPage T s.toSegmentConfig [] b)
    (hcreate : T.page.create (b + T.page.objectSize) (s.logicalPageSize - T.page.objectSize)
      s.sizeClass mem.bytes = some p) :
    Grown T L s mem [] owned [b]
      { s with
        head := b
        tail := b
        logicalPageCount := add64 s.logicalPageCount 1 } (mem.placePage b p) := by
  have hb := hx.not_mem h.pageSize_pos
  have hin := hx.inside
  have hobj := h.geometry.object_lt
  rw [one_mul] at hin
  have hinv := L.create_inv hcreate (by omega)
  have hold : ∀ a, a ≠ b → (mem.placePage b p).pages a = mem.pages a := fun a ha =>
    Memory.pages_setPage_of_ne _ _ ha
  have hself : (mem.placePage b p).pages b = p.header.markAsUsed := Memory.pages_setPage_self ..
  have hlisted := @Listed.singleton s mem b h.listed hx.ne_zero (by omega) (mem.placePage b p)
    (by rw [Memory.getNext, hself]; exact hinv.2.1)
    (by rw [Memory.getPrevious, hself]; exact hinv.2.2.1)
  refine ⟨h.placePage hx hcreate hlisted rfl (.refl _), rfl, rfl, rfl, ⟨fun a ha => hold a ?_,
    fun c hc => hinv.2.2.2.2.2.2 c ?_⟩, fun c y hy => ?_, rfl, rfl, fun c hc => ?_⟩
  · rintro rfl
    exact ha (region_self h.pageSize_pos (by simp))
  · by_contra hcb
    refine hc ⟨b, by simp, ?_⟩
    omega
  · rw [h.outside c List.not_mem_nil] at hy
    cases hy
  · by_cases hcb : c = b
    · rw [hcb, hself, LogicalPageHeader.canBeRecycled_markAsUsed] at hc
      cases hc
    · rw [hold c hcb] at hc
      exact ⟨hc, by simpa using hcb⟩

/-- The first page decides: if it cannot be made nothing is linked, else all pages are. -/
theorem grow_spec (h : SegmentInv T L s mem l owned) (hn : 1 ≤ n)
    (hfresh : FreshBuffer T s.toSegmentConfig l b n) :
    (T.page.create (b + T.page.objectSize) (s.logicalPageSize - T.page.objectSize)
        s.sizeClass mem.bytes = none ∧
      Segment.grow T b n s mem =
        some (0, s, (mem.setHeader b {}).releaseToSystem b s.logicalPageSize)) ∨
    ∃ s' mem', Segment.grow T b n s mem = some (b, s', mem') ∧
      Grown T L s mem l owned (newPages s.logicalPageSize b n) s' mem' := by
  obtain ⟨m, rfl⟩ : ∃ m, n = m + 1 := ⟨n - 1, by omega⟩
  obtain ⟨hx, hrest⟩ := hfresh.split
  have hin := hx.inside
  rw [one_mul] at hin
  have hobj := h.geometry.object_lt
  have harg : add64 b T.page.objectSize = b + T.page.objectSize := add64_of_lt (by omega)
  have hsize : sub64 s.logicalPageSize T.page.objectSize = s.logicalPageSize - T.page.objectSize :=
    sub64_of_le hobj.le (by omega)
  rcases hp : T.page.create (b + T.page.objectSize) (s.logicalPageSize - T.page.objectSize)
      s.sizeClass mem.bytes with _ | p
  · refine .inl ⟨rfl, ?_⟩
    rw [Segment.grow, Segment.createNewLogicalPage, harg, hsize, hp]
  right
  have hok : ∀ i m', (T.page.create (b + i * s.logicalPageSize + T.page.objectSize)
      (s.logicalPageSize - T.page.objectSize) s.sizeClass m').isSome := by
    intro i m'
    obtain ⟨q, hq⟩ := Nat.dvd_of_mod_eq_zero h.geometry.multiple
    have hs := L.create_shift (Option.isSome_iff_exists.mpr ⟨p, hp⟩) (Nat.le_add_left _ _) (i * q) m'
    have he : b + T.page.objectSize + i * q * 4096 = b + i * s.logicalPageSize + T.page.objectSize := by
      rw [hq, Nat.mul_comm 4096 q, Nat.mul_assoc]
      omega
    rwa [he] at hs
  have hcreate : Segment.createNewLogicalPage T b b s mem =
      (true, { s with logicalPageCount := add64 s.logicalPageCount 1 }, mem.placePage b p) := by
    rw [Segment.createNewLogicalPage, harg, hsize, hp]
  have hk : b + 1 * s.logicalPageSize = b + s.logicalPageSize := by rw [one_mul]
  rw [← hk] at hrest
  rw [newPages_succ, Segment.grow, hcreate, Nat.add_sub_cancel]
  dsimp only
  by_cases hl : l = []
  · subst hl
    have hhead : s.head = 0 := h.listed.head_eq_zero_iff.mpr rfl
    have hg := grown_first h hx hp
    obtain ⟨last, s', mem', he, hg'⟩ := @growRest_spec T L
      { s with
        head := b
        tail := b
        logicalPageCount := add64 s.logicalPageCount 1 }
      (mem.placePage b p) [b] owned b 1 m b hg.inv hx.ne_zero hrest hok
    refine ⟨{ s' with tail := last }, mem', ?_, ?_⟩
    · rw [if_neg (fun hc => hc.1 hhead), if_pos hhead]
      dsimp only
      rw [he]
    · rw [← hk]
      exact hg.trans hg'
  · have hhead : s.head ≠ 0 := fun e => hl (h.listed.head_eq_zero_iff.mp e)
    have htail : s.tail ≠ 0 := fun e => hl (h.listed.tail_eq_zero_iff.mp e)
    have hg := @grown_link T L s mem l owned b s.tail p h htail hx hp
    obtain ⟨last, s', mem', he, hg'⟩ := @growRest_spec T L
      { s with logicalPageCount := add64 s.logicalPageCount 1 }
      (Segment.linkAfter s.tail b (mem.placePage b p)) (l ++ [b]) owned b 1 m b hg.inv hx.ne_zero hrest hok
    refine ⟨{ s' with tail := last }, mem', ?_, ?_⟩
    · rw [if_neg (fun hc => htail hc.2), if_neg hhead]
      dsimp only
      rw [he]
    · rw [← hk]
      exact hg.trans hg'

theorem getRequiredPageCountForAllocation_pos {pageSize headerSize objectSize objectCount : Nat}
    (h : Segment.getRequiredPageCountForAllocation pageSize headerSize objectSize objectCount = some m) :
    1 ≤ m := by
  unfold Segment.getRequiredPageCountForAllocation at h
  split at h
  · cases h
  dsimp only at h
  split at h
  · cases h
  cases h
  split
  · exact le_rfl
  · rename_i hne
    exact Nat.pos_of_ne_zero hne

theorem getRequiredPageCountForAllocation_isSome {pageSize headerSize objectSize objectCount : Nat}
    (ho : objectSize ≠ 0) (hle : objectSize ≤ pageSize - headerSize) :
    ∃ m, Segment.getRequiredPageCountForAllocation pageSize headerSize objectSize objectCount = some m := by
  have hdiv : (pageSize - headerSize) / objectSize ≠ 0 :=
    Nat.ne_of_gt (Nat.div_pos hle (Nat.pos_of_ne_zero ho))
  rw [Segment.getRequiredPageCountForAllocation, if_neg ho]
  dsimp only
  rw [if_neg hdiv]
  exact ⟨_, rfl⟩

theorem getRequiredPageCountForAllocation_eq_one {pageSize headerSize objectSize objectCount : Nat}
    (hcount : objectCount ≤ max 1 ((pageSize - headerSize) / objectSize))
    (h : Segment.getRequiredPageCountForAllocation pageSize headerSize objectSize objectCount = some m) :
    m = 1 := by
  have hpos := getRequiredPageCountForAllocation_pos h
  refine Nat.le_antisymm ?_ hpos
  unfold Segment.getRequiredPageCountForAllocation at h
  split at h
  · cases h
  dsimp only at h
  split at h
  · cases h
  rename_i hper
  cases h
  split
  · exact le_rfl
  · rw [max_eq_right (Nat.pos_of_ne_zero hper)] at hcount
    generalize (pageSize - headerSize) / objectSize = perPage at hper hcount ⊢
    have hlt : objectCount + perPage - 1 < perPage * 2 := by omega
    exact Nat.le_of_lt_succ (Nat.div_lt_of_lt_mul hlt)

theorem calculateQuantities_bounds (h : Segment.calculateQuantities T size s = some (n, m)) :
    1 ≤ m ∧ m ≤ n := by
  unfold Segment.calculateQuantities at h
  obtain ⟨k, hk, he⟩ := Option.map_eq_some_iff.mp h
  have hpos : 1 ≤ k := by
    split at hk
    · exact getRequiredPageCountForAllocation_pos hk
    split at hk
    · cases hk
    · exact getRequiredPageCountForAllocation_pos hk
  split at he
  · obtain ⟨rfl, rfl⟩ := Prod.mk.inj he
    refine ⟨hpos, ?_⟩
    split <;> omega
  · obtain ⟨rfl, rfl⟩ := Prod.mk.inj he
    exact ⟨hpos, le_rfl⟩

/-- Without a growth coefficient a segment grows by one page at a time. -/
theorem calculateQuantities_eq_one (hcoefficient : s.growCoefficient.positive = false)
    (hsize : T.page.supportsAnySize = false → size ≤ max s.sizeClass (s.logicalPageSize - T.page.objectSize))
    (h : Segment.calculateQuantities T size s = some (n, m)) : n = 1 ∧ m = 1 := by
  unfold Segment.calculateQuantities at h
  obtain ⟨k, hk, he⟩ := Option.map_eq_some_iff.mp h
  rw [hcoefficient] at he
  obtain ⟨rfl, rfl⟩ := Prod.mk.inj he
  have hone : k = 1 := by
    split at hk
    · exact getRequiredPageCountForAllocation_eq_one (le_max_left ..) hk
    split at hk
    · cases hk
    · rename_i hany h0
      refine getRequiredPageCountForAllocation_eq_one ?_ hk
      -- as many objects as the size is long fit on one page
      rcases le_max_iff.mp (hsize (by simpa using hany)) with hclass | hpage
      · exact le_max_of_le_left ((Nat.div_le_div_right hclass).trans (Nat.div_self (Nat.pos_of_ne_zero h0)).le)
      · exact le_max_of_le_right (Nat.div_le_div_right hpage)
  exact ⟨hone, hone⟩

/-- Sizes that leave room for the page object have well-defined quantities, except that an any-size
segment divides by the size. -/
theorem calculateQuantities_isSome_of_le (hs : size ≤ s.logicalPageSize - T.page.objectSize)
    (hclass : T.page.supportsAnySize = false →
      0 < s.sizeClass ∧ s.sizeClass ≤ s.logicalPageSize - T.page.objectSize)
    (h0 : T.page.supportsAnySize = true → size ≠ 0) :
    ∃ n m, Segment.calculateQuantities T size s = some (n, m) := by
  have hmin : ∃ m, (if T.page.supportsAnySize = true then
      Segment.getRequiredPageCountForAllocation s.logicalPageSize T.page.objectSize size 1
    else if s.sizeClass = 0 then none
    else Segment.getRequiredPageCountForAllocation s.logicalPageSize T.page.objectSize s.sizeClass
      (size / s.sizeClass)) = some m := by
    split
    · rename_i hany
      exact getRequiredPageCountForAllocation_isSome (h0 hany) hs
    · rename_i hany
      obtain ⟨hpos, hle⟩ := hclass (by simpa using hany)
      have hpos' : s.sizeClass ≠ 0 := Nat.ne_of_gt hpos
      rw [if_neg hpos']
      exact getRequiredPageCountForAllocation_isSome hpos' hle
  obtain ⟨m, he⟩ := hmin
  rw [Segment.calculateQuantities, he, Option.map_some]
  exact ⟨_, _, rfl⟩

theorem calculateQuantities_isSome (L : PageLaws T.page) (hg : Geometry T s.toSegmentConfig)
    (hs : size ≤ s.maxObjectSize) (h0 : T.page.supportsAnySize = true → size ≠ 0) :
    ∃ n m, Segment.calculateQuantities T size s = some (n, m) := by
  have hobj := L.objectSize_eq
  have hmax := hg.maxObject
  obtain ⟨buffer, m', hc⟩ := hg.creatable
  exact calculateQuantities_isSome_of_le (by omega) (L.create_class hc) h0

/-- The arena grants fresh buffers, and refuses the smaller request after the larger one. -/
structure ArenaPromise (T : SegmentType) (s : Segment) (l : List Nat) (arena : ArenaAnswers)
    (size : Nat) : Prop where
  fresh : ∀ n m, Segment.calculateQuantities T size s = some (n, m) →
    arena.request (mul64 s.logicalPageSize n) ≠ 0 →
    FreshBuffer T s.toSegmentConfig l (arena.request (mul64 s.logicalPageSize n)) n
  refused : ∀ n m, Segment.calculateQuantities T size s = some (n, m) → m < n →
    arena.request (mul64 s.logicalPageSize n) = 0 →
    arena.retry (mul64 s.logicalPageSize m) = 0

/-- The call asks for `n` pages and is given the buffer `b`. -/
def Granted (T : SegmentType) (arena : ArenaAnswers) (size : Nat) (s : Segment) (n b : Nat) : Prop :=
  T.concurrency ≠ .threadLocal ∧ ∃ m, Segment.calculateQuantities T size s = some (n, m) ∧ 1 ≤ n ∧
    arena.request (mul64 s.logicalPageSize n) = b ∧ b ≠ 0

/-- Everything a call of `allocate_internal` can do: the result, the segment, the memory,
its list and what its pages have given out. -/
inductive AllocateOutcome (T : SegmentType) (L : PageLaws T.page) (arena : ArenaAnswers) (size : Nat)
    (s : Segment) (mem : Memory) (l : List Nat) (owned : Nat → List Allocation) :
    Nat → Segment → Memory → List Nat → (Nat → List Allocation) → Prop
  /-- Too large, or no page serves and there is no growth. -/
  | refused : AllocateOutcome T L arena size s mem l owned 0 s mem l owned
  | served {a ret : Nat} {mem' : Memory}
      (hfind : (searchOrder s l).find? (serves T size mem) = some a)
      (hs : Served T L s mem l owned size a ret mem') :
      AllocateOutcome T L arena size s mem l owned ret { s with lastUsed := a } mem' l
        (Function.update owned a (⟨ret, L.granted s.sizeClass size⟩ :: owned a))
  /-- The buffer is not placed as a page object demands. -/
  | failed {n b : Nat} (hb : Granted T arena size s n b)
      (hfresh : FreshBuffer T s.toSegmentConfig l b n)
      (hfail : T.page.create (b + T.page.objectSize) (s.logicalPageSize - T.page.objectSize)
        s.sizeClass mem.bytes = none)
      (hinv : SegmentInv T L s ((mem.setHeader b {}).releaseToSystem b s.logicalPageSize) l owned) :
      AllocateOutcome T L arena size s mem l owned 0 s
        ((mem.setHeader b {}).releaseToSystem b s.logicalPageSize) l owned
  /-- Pages were added, but an empty page is too small for the request. -/
  | grown {n b : Nat} {s' : Segment} {mem' : Memory} (hb : Granted T arena size s n b)
      (hg : Grown T L s mem l owned (newPages s.logicalPageSize b n) s' mem') :
      AllocateOutcome T L arena size s mem l owned 0 s' mem'
        (l ++ newPages s.logicalPageSize b n) owned
  | grownServed {n b ret : Nat} {s' : Segment} {mem' mem'' : Memory}
      (hb : Granted T arena size s n b)
      (hg : Grown T L s mem l owned (newPages s.logicalPageSize b n) s' mem')
      (hs : Served T L s' mem' (l ++ newPages s.logicalPageSize b n) owned size b ret mem'') :
      AllocateOutcome T L arena size s mem l owned ret { s' with lastUsed := b } mem''
        (l ++ newPages s.logicalPageSize b n)
        (Function.update owned b (⟨ret, L.granted s.sizeClass size⟩ :: owned b))

variable {arena : ArenaAnswers}

theorem SegmentInv.setHeader_of_fresh (h : SegmentInv T L s mem l owned)
    (hx : FreshBuffer T s.toSegmentConfig l b n) (hn : 1 ≤ n) (header : LogicalPageHeader) :
    SegmentInv T L s (mem.setHeader b header) l owned := by
  have hP := h.pageSize_pos
  have hle : s.logicalPageSize ≤ n * s.logicalPageSize := Nat.le_mul_of_pos_left _ hn
  refine h.of_within (R := fun c => c = b) (within_setHeader rfl) ?_
  rintro c ⟨a, ha, hlo, hhi⟩ rfl
  have := hx.apart a ha
  omega

theorem growAndAllocate_spec (h : SegmentInv T L s mem l owned) (hc : T.concurrency ≠ .threadLocal)
    (hs : size ≤ s.maxObjectSize) (h0 : T.page.supportsAnySize = true → size ≠ 0) (hlt : size + 32 < 2^64)
    (ha : ArenaPromise T s l arena size) :
    ∃ ret s' mem' l' owned', Segment.growAndAllocate T arena size s mem = some (ret, s', mem') ∧
      AllocateOutcome T L arena size s mem l owned ret s' mem' l' owned' := by
  obtain ⟨n, m, hq⟩ := calculateQuantities_isSome L h.geometry hs h0
  obtain ⟨hm, hmn⟩ := calculateQuantities_bounds hq
  obtain ⟨b, hreq⟩ : ∃ b, arena.request (mul64 s.logicalPageSize n) = b := ⟨_, rfl⟩
  have hbuffer : Segment.requestBuffer arena s n m = b := by
    rw [Segment.requestBuffer, hreq]
    split
    · rename_i hr
      rw [hr.1]
      exact ha.refused n m hq hr.2 (hreq.trans hr.1)
    · rfl
  rw [Segment.growAndAllocate, hq]
  dsimp only
  rw [hbuffer]
  by_cases hb : b = 0
  · rw [if_pos hb]
    exact ⟨0, s, mem, l, owned, rfl, .refused⟩
  rw [if_neg hb]
  have hgr : Granted T arena size s n b := ⟨hc, m, hq, by omega, hreq, hb⟩
  have hfresh := ha.fresh n m hq (by rwa [hreq])
  rw [hreq] at hfresh
  rcases grow_spec h (by omega) hfresh with ⟨hfail, he⟩ | ⟨s', mem', he, hg⟩
  · rw [he]
    refine ⟨0, s, _, l, owned, rfl, .failed hgr hfresh hfail ?_⟩
    exact (h.setHeader_of_fresh hfresh (by omega) {}).releaseToSystem _ _
  · rw [he]
    dsimp only
    rw [if_neg hb]
    have hmem : b ∈ l ++ newPages s.logicalPageSize b n := by
      obtain ⟨k, rfl⟩ : ∃ k, n = k + 1 := ⟨n - 1, by omega⟩
      rw [newPages_succ]
      simp
    obtain ⟨ret, p, hal, hp⟩ := hg.inv.allocateOn hmem hlt
    rw [hal]
    dsimp only
    rcases hp with ⟨rfl, hsame, _⟩ | ⟨_, hserved⟩
    · rw [hsame, if_neg (not_not.mpr rfl)]
      exact ⟨0, s', mem', _, owned, rfl, .grown hgr hg⟩
    · rw [if_pos hserved.ne_zero]
      exact ⟨ret, _, _, _, _, rfl, .grownServed hgr hg hserved⟩

theorem growAndAllocate_of_zero (h : T.page.supportsAnySize = true) (h0 : size = 0) :
    Segment.growAndAllocate T arena size s mem = none := by
  simp [Segment.growAndAllocate, Segment.calculateQuantities, h, h0,
    Segment.getRequiredPageCountForAllocation]

/-- One call either does one of the things listed, or divides by a size of zero. -/
theorem allocateInternal_spec (h : SegmentInv T L s mem l owned)
    (ha : T.concurrency ≠ .threadLocal → ArenaPromise T s l arena size) :
    ((T.page.supportsAnySize = true ∧ size = 0) ∧
        Segment.allocateInternal T arena size s mem = none) ∨
      ∃ ret s' mem' l' owned', Segment.allocateInternal T arena size s mem = some (ret, s', mem') ∧
        AllocateOutcome T L arena size s mem l owned ret s' mem' l' owned' := by
  unfold Segment.allocateInternal
  by_cases hmax : s.maxObjectSize < size
  · rw [if_pos hmax]
    exact .inr ⟨0, s, mem, l, owned, rfl, .refused⟩
  rw [if_neg hmax]
  have hword := h.geometry.word
  have hobj := h.geometry.maxObject
  have hlt : size + 32 < 2^64 := by
    simp only [logicalPageHeaderSize] at hobj
    omega
  rcases searchListed_spec h hlt with ⟨_, he⟩ | ⟨a, ret, mem', hf, he, hserved⟩
  · rw [he]
    dsimp only
    by_cases hc : T.concurrency = .threadLocal
    · rw [if_pos hc]
      exact .inr ⟨0, s, mem, l, owned, rfl, .refused⟩
    · rw [if_neg hc]
      by_cases h0 : T.page.supportsAnySize = true ∧ size = 0
      · exact .inl ⟨h0, growAndAllocate_of_zero h0.1 h0.2⟩
      · exact .inr (growAndAllocate_spec h hc (by omega) (fun hany hz => h0 ⟨hany, hz⟩) hlt (ha hc))
  · rw [he]
    exact .inr ⟨ret, _, mem', l, _, rfl, .served hf hserved⟩

theorem isSizeAMultipleOfPageAllocationGranularity_iff (input : Nat) :
    isSizeAMultipleOfPageAllocationGranularity input = true ↔ input % 4096 = 0 :=
  isAddressPageAllocationGranularityAligned_iff input

/-- A growth that returns a page has made a page object at the start of its buffer. -/
theorem create_isSome_of_grow {first : Nat} (h : Segment.grow T b n s mem = some (first, s', mem'))
    (h0 : first ≠ 0) :
    (T.page.create (add64 b T.page.objectSize) (sub64 s.logicalPageSize T.page.objectSize)
      s.sizeClass mem.bytes).isSome := by
  rcases hp : T.page.create (add64 b T.page.objectSize) (sub64 s.logicalPageSize T.page.objectSize)
      s.sizeClass mem.bytes with _ | p
  · rw [Segment.grow, Segment.createNewLogicalPage, hp] at h
    cases h
    exact absurd rfl h0
  · rfl

/-- A segment without pages has no list that a growth could follow. -/
theorem grow_returns (h : s.head = 0) : ∃ r, Segment.grow T b n s mem = some r := by
  rw [Segment.grow, Segment.createNewLogicalPage]
  rcases T.page.create (add64 b T.page.objectSize) (sub64 s.logicalPageSize T.page.objectSize)
      s.sizeClass mem.bytes with _ | p
  · exact ⟨_, rfl⟩
  dsimp only
  rw [if_neg fun hlist => hlist.1 h, if_pos h]
  dsimp only
  rcases Segment.growRest T b (List.range' 1 (n - 1)) b _ _ with ⟨_ | last, s', mem'⟩
  · exact ⟨_, rfl⟩
  · exact ⟨_, rfl⟩

theorem create_returns {buffer : Nat} {queueMemory : Bool} {params : SegmentCreationParameters} (h : s.head = 0) :
    ∃ r, Segment.create T buffer queueMemory params s mem = some r := by
  rw [Segment.create]
  split
  · exact ⟨_, rfl⟩
  split
  · exact ⟨_, rfl⟩
  dsimp only
  obtain ⟨⟨first, s', mem'⟩, hgrow⟩ := @grow_returns T
    { s with
      logicalPageSize := params.logicalPageSize
      maxObjectSize := params.logicalPageSize - logicalPageHeaderSize
      sizeClass := params.sizeClass
      pageRecyclingThreshold := params.pageRecyclingThreshold
      growCoefficient := params.growCoefficient } mem buffer params.logicalPageCount h
  rw [hgrow]
  dsimp only
  split
  · exact ⟨_, rfl⟩
  split
  · exact ⟨_, rfl⟩
  · exact ⟨_, rfl⟩

/-- What a successful `create` leaves behind. -/
structure Created (T : SegmentType) (L : PageLaws T.page) (params : SegmentCreationParameters)
    (mem : Memory) (new : List Nat) (s : Segment) (mem' : Memory) : Prop where
  inv : SegmentInv T L s mem' new fun _ => []
  pageSize : s.logicalPageSize = params.logicalPageSize
  sizeClass : s.sizeClass = params.sizeClass
  threshold : s.pageRecyclingThreshold = params.pageRecyclingThreshold
  growCoefficient : s.growCoefficient = params.growCoefficient
  bufferLength : T.concurrency = .threadLocal →
    s.bufferLength = mul64 params.logicalPageSize params.logicalPageCount
  queue : s.deallocationQueue = []
  within : Within mem mem' (region params.logicalPageSize new)
  created : mem'.created = new.reverse ++ mem.created
  released : mem'.released = mem.released
  flags : ∀ b, (mem'.pages b).canBeRecycled = true → (mem.pages b).canBeRecycled = true ∧ b ∉ new

/-- The segment as `create` has set it up before its first page. -/
def configured (params : SegmentCreationParameters) : Segment :=
  { logicalPageSize := params.logicalPageSize
    maxObjectSize := params.logicalPageSize - logicalPageHeaderSize
    sizeClass := params.sizeClass
    pageRecyclingThreshold := params.pageRecyclingThreshold
    growCoefficient := params.growCoefficient }

theorem create_eq_some {buffer : Nat} {queueMemory : Bool} {params : SegmentCreationParameters}
    (h : Segment.create T buffer queueMemory params {} mem = some (true, s, mem')) :
    params.logicalPageSize ≠ 0 ∧ params.logicalPageSize % 4096 = 0 ∧ params.logicalPageCount ≠ 0 ∧
      T.page.objectSize < params.logicalPageSize ∧
      ∃ first s₁, first ≠ 0 ∧
        Segment.grow T buffer params.logicalPageCount (configured params) mem = some (first, s₁, mem') ∧
        s = if T.concurrency = .threadLocal then
          { s₁ with bufferLength := mul64 s₁.logicalPageSize params.logicalPageCount } else s₁ := by
  unfold Segment.create at h
  split at h
  · cases h
  split at h
  · cases h
  rename_i hguard _
  simp only [not_or, Bool.not_eq_true', Bool.not_eq_false, isSizeAMultipleOfPageAllocationGranularity_iff]
    at hguard
  obtain ⟨h1, h2, h3, h4, _⟩ := hguard
  refine ⟨h1, h2, h3, by omega, ?_⟩
  dsimp only at h
  rcases hg : Segment.grow T buffer params.logicalPageCount (configured params) mem with
    _ | ⟨first, s₁, mem₁⟩
  · rw [configured] at hg
    rw [hg] at h
    cases h
  · rw [configured] at hg
    rw [hg] at h
    dsimp only at h
    by_cases h0 : first = 0
    · rw [if_pos h0] at h
      cases h
    · rw [if_neg h0] at h
      split at h
      · rename_i hc
        cases h
        exact ⟨first, s₁, h0, rfl, (if_pos hc).symm⟩
      · rename_i hc
        cases h
        exact ⟨first, s, h0, rfl, (if_neg hc).symm⟩

theorem configured_inv {params : SegmentCreationParameters} (h : Geometry T (configured params).toSegmentConfig) :
    SegmentInv T L (configured params) mem [] fun _ => [] :=
  ⟨⟨.empty rfl rfl, by simp, rfl, .inl rfl⟩, h, by simp, by simp, .nil, by simp, by simp, fun _ _ => rfl⟩

theorem create_spec {buffer : Nat} {queueMemory : Bool} {params : SegmentCreationParameters}
    (L : PageLaws T.page) (hword : params.logicalPageSize < 2^64)
    (hb : FreshBuffer T { logicalPageSize := params.logicalPageSize } [] buffer params.logicalPageCount)
    (hp : T.bufferAlignedToLogicalPageSize = true → ∃ k ≤ 64, params.logicalPageSize = 2^k)
    (h : Segment.create T buffer queueMemory params {} mem = some (true, s, mem')) :
    Created T L params mem (newPages params.logicalPageSize buffer params.logicalPageCount) s mem' := by
  obtain ⟨h1, h2, h3, h4, first, s₁, h0, hg, hs⟩ := create_eq_some h
  have hgeometry : Geometry T (configured params).toSegmentConfig := by
    refine ⟨h2, hword, h4, ?_, ?_, hp⟩
    · simp only [configured, logicalPageHeaderSize]
      omega
    · have hc := create_isSome_of_grow hg h0
      simp only [configured] at hc
      rw [sub64_of_le h4.le hword] at hc
      exact ⟨_, _, hc⟩
  have hempty : SegmentInv T L (configured params) mem [] fun _ => [] := configured_inv hgeometry
  have hfresh : FreshBuffer T (configured params).toSegmentConfig [] buffer params.logicalPageCount :=
    ⟨hb.ne_zero, hb.inside, by simp, hb.aligned⟩
  rcases grow_spec hempty (by omega) hfresh with ⟨_, he⟩ | ⟨s₂, mem₂, he, hgrown⟩
  · rw [he] at hg
    cases hg
    exact absurd rfl h0
  · rw [he] at hg
    cases hg
    have hconfig := hgrown.config
    have hsize : s₁.logicalPageSize = params.logicalPageSize := congrArg SegmentConfig.logicalPageSize hconfig
    have hwithin := hgrown.within
    have hinv := hgrown.inv
    rw [List.nil_append] at hwithin hinv
    -- The buffer length is no part of the invariant.
    have hlength : ∀ n, SegmentInv T L { s₁ with bufferLength := n } mem'
        (newPages params.logicalPageSize buffer params.logicalPageCount) fun _ => [] := by
      intro n
      obtain ⟨hl, ⟨g1, g2, g3, g4, g5, g6⟩, hi, hal, hap, hf, hpg, ho⟩ := hinv
      exact ⟨hl.congr rfl rfl rfl hl.lastUsed fun _ _ => ⟨rfl, rfl⟩, ⟨g1, g2, g3, g4, g5, g6⟩, hi, hal,
        hap, hf, hpg, ho⟩
    by_cases hc : T.concurrency = .threadLocal
    · rw [if_pos hc] at hs
      subst hs
      exact ⟨hlength _, hsize, congrArg SegmentConfig.sizeClass hconfig,
        congrArg SegmentConfig.pageRecyclingThreshold hconfig,
        congrArg SegmentConfig.growCoefficient hconfig, fun _ => by rw [hsize], hgrown.queue, hwithin,
        hgrown.created, hgrown.released, hgrown.flags⟩
    · rw [if_neg hc] at hs
      subst hs
      exact ⟨hinv, hsize, congrArg SegmentConfig.sizeClass hconfig,
        congrArg SegmentConfig.pageRecyclingThreshold hconfig,
        congrArg SegmentConfig.growCoefficient hconfig, fun h => absurd h hc, hgrown.queue, hwithin,
        hgrown.created, hgrown.released, hgrown.flags⟩

/-- A creation that fails touches no more than the place of its first page. -/
theorem create_failed {buffer : Nat} {queueMemory : Bool} {params : SegmentCreationParameters}
    (L : PageLaws T.page) (hword : params.logicalPageSize < 2^64)
    (hb : FreshBuffer T { logicalPageSize := params.logicalPageSize } [] buffer params.logicalPageCount)
    (hp : T.bufferAlignedToLogicalPageSize = true → ∃ k ≤ 64, params.logicalPageSize = 2^k)
    (h : Segment.create T buffer queueMemory params {} mem = some (false, s, mem')) :
    Within mem mem' (· = buffer) := by
  unfold Segment.create at h
  split at h
  · cases h
    exact .refl _ _
  rename_i hguard
  split at h
  · cases h
    exact .refl _ _
  simp only [not_or, Bool.not_eq_true', Bool.not_eq_false, isSizeAMultipleOfPageAllocationGranularity_iff]
    at hguard
  obtain ⟨h1, h2, h3, h4, _⟩ := hguard
  dsimp only at h
  rcases hpage : T.page.create (add64 buffer T.page.objectSize) (sub64 params.logicalPageSize T.page.objectSize)
      params.sizeClass mem.bytes with _ | p
  · have hg : Segment.grow T buffer params.logicalPageCount (configured params) mem =
        some (0, configured params, (mem.setHeader buffer {}).releaseToSystem buffer params.logicalPageSize) := by
      rw [Segment.grow, Segment.createNewLogicalPage]
      simp only [configured, hpage]
    rw [configured] at hg
    rw [hg] at h
    cases h
    exact ⟨fun a ha => Function.update_of_ne ha .., fun _ _ => rfl⟩
  · -- With a first page the growth succeeds, and so does the creation.
    have hlt : buffer + T.page.objectSize < 2^64 := by
      have hin := hb.inside
      have hle : params.logicalPageSize ≤ params.logicalPageCount * params.logicalPageSize :=
        Nat.le_mul_of_pos_left _ (Nat.pos_of_ne_zero h3)
      dsimp only at hin
      omega
    rw [add64_of_lt hlt, sub64_of_le (by omega) hword] at hpage
    have hgeometry : Geometry T (configured params).toSegmentConfig := by
      refine ⟨h2, hword, Nat.lt_of_not_le h4, ?_, ⟨_, _, Option.isSome_iff_exists.mpr ⟨p, hpage⟩⟩, hp⟩
      have hobject := L.objectSize_eq
      simp only [configured]
      omega
    have hempty : SegmentInv T L (configured params) mem [] fun _ => [] := configured_inv hgeometry
    have hfresh : FreshBuffer T (configured params).toSegmentConfig [] buffer params.logicalPageCount :=
      ⟨hb.ne_zero, hb.inside, by simp, hb.aligned⟩
    rcases grow_spec hempty (Nat.pos_of_ne_zero h3) hfresh with ⟨hnone, _⟩ | ⟨s₂, mem₂, he, _⟩
    · simp only [configured, hpage] at hnone
      cases hnone
    · rw [configured] at he
      rw [he] at h
      dsimp only at h
      rw [if_neg hb.ne_zero] at h
      split at h <;> cases h

end
end Metamalloc.Segments
