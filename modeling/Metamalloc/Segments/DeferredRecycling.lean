import Metamalloc.Segments.RecyclableFlag

/-! What `recycle_free_logical_pages` removes. The loop counts down the pages above the
threshold, and goes on from the page in front of the one it has removed. -/
namespace Metamalloc.Segments
open Library.Word64 Library.ByteMemory Library.LinkedList Pages

def recyclablePages (mem : Memory) (l : List Nat) : List Nat := l.filter fun a => (mem.pages a).canBeRecycled

/-- The first recyclable pages in list order, so many or as many as there are. -/
def dueForRecycling (mem : Memory) (num : Nat) (l : List Nat) : List Nat := (recyclablePages mem l).take num

def keptPages (mem : Memory) (num : Nat) (l : List Nat) : List Nat :=
  l.filter fun a => a ∉ dueForRecycling mem num l

/-- The pages that are due were released in order; the others are linked in theirs, and nothing
else has changed. -/
structure RemovedDue (s : Segment) (mem : Memory) (num : Nat) (l₁ l₂ : List Nat) (s' : Segment)
    (mem' : Memory) : Prop where
  listed : Listed s' mem' (l₁ ++ keptPages mem num l₂)
  released : mem'.released = (dueForRecycling mem num l₂).reverse.map (fun a => (a, s.logicalPageSize)) ++
    mem.released
  config : s'.toSegmentConfig = s.toSegmentConfig
  bytes : mem'.bytes = mem.bytes
  pages : ∀ a, ∃ next previous, mem'.pages a =
    { mem.pages a with nextLogicalPagePtr := next, prevLogicalPagePtr := previous }

/-- The call returns, and has removed as many of the recyclable pages as exceed the threshold. -/
def RecyclesAboveThreshold (s : Segment) (mem : Memory) (l : List Nat) : Prop :=
  ∃ s' mem', Segment.recycleFreeLogicalPages s mem = some (s', mem') ∧
    RemovedDue s mem (s.logicalPageCount - s.pageRecyclingThreshold) [] l s' mem'

section
variable {s s' s'' : Segment} {mem mem' mem'' : Memory} {l l₁ l₂ : List Nat} {a fuel num iter iterPrevious : Nat}

theorem dueForRecycling_cons (hr : (mem.pages a).canBeRecycled = true) :
    dueForRecycling mem (num + 1) (a :: l) = a :: dueForRecycling mem num l := by
  rw [dueForRecycling, recyclablePages, List.filter_cons, if_pos hr, List.take_succ_cons]
  rfl

theorem dueForRecycling_cons_of_not (hr : (mem.pages a).canBeRecycled = false) :
    dueForRecycling mem num (a :: l) = dueForRecycling mem num l := by
  rw [dueForRecycling, recyclablePages, List.filter_cons_of_neg (by simp [hr])]
  rfl

theorem canBeRecycled_of_due (h : a ∈ dueForRecycling mem num l) :
    a ∈ l ∧ (mem.pages a).canBeRecycled = true := List.mem_filter.mp (List.mem_of_mem_take h)

theorem keptPages_zero : keptPages mem 0 l = l := by
  rw [keptPages, List.filter_eq_self]
  intro b _
  simp [dueForRecycling]

theorem keptPages_cons (ha : a ∉ l) (hr : (mem.pages a).canBeRecycled = true) :
    keptPages mem (num + 1) (a :: l) = keptPages mem num l := by
  rw [keptPages, dueForRecycling_cons hr, List.filter_cons_of_neg (by simp)]
  refine List.filter_congr fun b hb => ?_
  have hne : b ≠ a := fun e => ha (e ▸ hb)
  simp [hne]

theorem keptPages_cons_of_not (hr : (mem.pages a).canBeRecycled = false) :
    keptPages mem num (a :: l) = a :: keptPages mem num l := by
  rw [keptPages, dueForRecycling_cons_of_not hr, List.filter_cons_of_pos]
  · rfl
  · simp only [decide_eq_true_eq]
    intro hdue
    rw [(canBeRecycled_of_due hdue).2] at hr
    cases hr

theorem recyclablePages_congr (h : ∀ b, (mem'.pages b).canBeRecycled = (mem.pages b).canBeRecycled) :
    recyclablePages mem' l = recyclablePages mem l := List.filter_congr fun b _ => h b

theorem dueForRecycling_congr (h : ∀ b, (mem'.pages b).canBeRecycled = (mem.pages b).canBeRecycled) :
    dueForRecycling mem' num l = dueForRecycling mem num l := by
  rw [dueForRecycling, recyclablePages_congr h, dueForRecycling]

theorem keptPages_congr (h : ∀ b, (mem'.pages b).canBeRecycled = (mem.pages b).canBeRecycled) :
    keptPages mem' num l = keptPages mem num l := by
  rw [keptPages, dueForRecycling_congr h, keptPages]

theorem Listed.recycleLogicalPage (h : Listed s mem (l₁ ++ a :: l₂)) :
    ∃ s' mem', Segment.recycleLogicalPage a s mem = (s', mem') ∧ Listed s' mem' (l₁ ++ l₂) ∧
      mem'.released = (a, s.logicalPageSize) :: mem.released ∧ s'.toSegmentConfig = s.toSegmentConfig ∧
      mem'.bytes = mem.bytes ∧ ∀ b, ∃ next previous, mem'.pages b =
        { mem.pages b with nextLogicalPagePtr := next, prevLogicalPagePtr := previous } := by
  have hlisted := h.removeLogicalPage
  have hrelinked : Relinked mem (Segment.removeLogicalPage a s mem).2 := relinked_removeLogicalPage
  have hconfig : (Segment.removeLogicalPage a s mem).1.toSegmentConfig = s.toSegmentConfig :=
    config_removeLogicalPage.1
  refine ⟨(Segment.removeLogicalPage a s mem).1, (Segment.removeLogicalPage a s mem).2.releaseToSystem a
    (Segment.removeLogicalPage a s mem).1.logicalPageSize, rfl, ?_, ?_, hconfig, hrelinked.bytes, hrelinked.pages⟩
  · exact hlisted.congr rfl rfl rfl hlisted.lastUsed fun _ _ => ⟨rfl, rfl⟩
  · change (a, (Segment.removeLogicalPage a s mem).1.toSegmentConfig.logicalPageSize) ::
      (Segment.removeLogicalPage a s mem).2.released = _
    rw [hconfig, hrelinked.released]

theorem flags_of_relinked (hpages : ∀ b, ∃ next previous, mem'.pages b =
    { mem.pages b with nextLogicalPagePtr := next, prevLogicalPagePtr := previous }) (b : Nat) :
    (mem'.pages b).canBeRecycled = (mem.pages b).canBeRecycled := by
  obtain ⟨next, previous, he⟩ := hpages b
  exact LogicalPageHeader.canBeRecycled_congr (by rw [he])

theorem RemovedDue.cons (ha : a ∉ l₂) (hr : (mem.pages a).canBeRecycled = true)
    (hlog : mem'.released = (a, s.logicalPageSize) :: mem.released)
    (hconfig : s'.toSegmentConfig = s.toSegmentConfig) (hbytes : mem'.bytes = mem.bytes)
    (hpages : ∀ b, ∃ next previous, mem'.pages b =
      { mem.pages b with nextLogicalPagePtr := next, prevLogicalPagePtr := previous })
    (h : RemovedDue s' mem' num l₁ l₂ s'' mem'') : RemovedDue s mem (num + 1) l₁ (a :: l₂) s'' mem'' := by
  have hflags := flags_of_relinked hpages
  refine ⟨?_, ?_, h.config.trans hconfig, h.bytes.trans hbytes, fun b => ?_⟩
  · rw [keptPages_cons ha hr, ← keptPages_congr hflags]
    exact h.listed
  · rw [h.released, hlog, dueForRecycling_congr hflags, dueForRecycling_cons hr, List.reverse_cons, List.map_append,
      hconfig, List.append_assoc]
    rfl
  · obtain ⟨next, previous, he⟩ := hpages b
    obtain ⟨next', previous', he'⟩ := h.pages b
    exact ⟨next', previous', by rw [he', he]⟩

theorem RemovedDue.skip (hr : (mem.pages a).canBeRecycled = false)
    (h : RemovedDue s mem num (l₁ ++ [a]) l₂ s' mem') : RemovedDue s mem num l₁ (a :: l₂) s' mem' := by
  refine ⟨?_, ?_, h.config, h.bytes, h.pages⟩
  · rw [keptPages_cons_of_not hr, List.append_cons]
    exact h.listed
  · rw [dueForRecycling_cons_of_not hr]
    exact h.released

theorem recycleFreeLoop_zero (h : Listed s mem (l₁ ++ l₂)) (hfuel : l₂.length < fuel) :
    ∃ s' mem', Segment.recycleFreeLoop fuel 0 iter iterPrevious s mem = some (s', mem') ∧
      RemovedDue s mem 0 l₁ l₂ s' mem' := by
  obtain ⟨fuel, rfl⟩ := Nat.exists_eq_succ_of_ne_zero (by omega : fuel ≠ 0)
  refine ⟨s, mem, by rw [Segment.recycleFreeLoop, if_pos rfl], ?_, ?_, rfl, rfl, fun a => ⟨_, _, rfl⟩⟩
  · rwa [keptPages_zero]
  · simp [dueForRecycling]

/-- With a page in front to go on from, and enough recyclable pages ahead, the loop removes the first of them. -/
theorem recycleFreeLoop_removes (h : Listed s mem (l₁ ++ l₂)) (hpath : Path mem.getNext iter l₂ 0)
    (hprevious : num = 0 ∨ (∃ l₀, l₁ = l₀ ++ [iterPrevious]) ∨
      l₁ = [] ∧ (mem.pages iter).canBeRecycled = false)
    (hnum : num ≤ (recyclablePages mem l₂).length) (hfuel : l₂.length < fuel) :
    ∃ s' mem', Segment.recycleFreeLoop fuel num iter iterPrevious s mem = some (s', mem') ∧
      RemovedDue s mem num l₁ l₂ s' mem' := by
  induction l₂ generalizing fuel num iter iterPrevious s mem l₁ with
  | nil =>
    obtain rfl : num = 0 := by simpa [recyclablePages] using hnum
    exact recycleFreeLoop_zero h hfuel
  | cons a l₂ ih =>
    by_cases hzero : num = 0
    · subst hzero
      exact recycleFreeLoop_zero h hfuel
    obtain ⟨fuel, rfl⟩ := Nat.exists_eq_succ_of_ne_zero (by omega : fuel ≠ 0)
    obtain ⟨num, rfl⟩ := Nat.exists_eq_succ_of_ne_zero hzero
    obtain ⟨rfl, hpath⟩ := hpath
    have ha : iter ≠ 0 := h.ne_zero (by simp)
    have hrest : iter ∉ l₂ := by
      have hnodup := (List.nodup_append.mp h.ring.nodup_list).2.1
      exact (List.nodup_cons.mp hnodup).1
    have hfuel' : l₂.length < fuel := by
      rw [List.length_cons] at hfuel
      omega
    rw [Segment.recycleFreeLoop, if_neg hzero, if_neg ha]
    by_cases hr : (mem.pages iter).canBeRecycled = true
    · have hbehind : ∃ l₀, l₁ = l₀ ++ [iterPrevious] := by
        rcases hprevious with hc | hc | hc
        · exact absurd hc hzero
        · exact hc
        · rw [hc.2] at hr
          cases hr
      obtain ⟨l₀, rfl⟩ := hbehind
      have hp0 : iterPrevious ≠ 0 := h.ne_zero (by simp)
      obtain ⟨s₁, mem₁, hrec, hlisted, hlog, hconfig, hbytes, hpages⟩ := h.recycleLogicalPage
      have hflags := flags_of_relinked hpages
      have hnum' : num ≤ (recyclablePages mem₁ l₂).length := by
        rw [recyclablePages, List.filter_cons, if_pos hr, List.length_cons] at hnum
        rw [recyclablePages_congr hflags]
        exact Nat.le_of_succ_le_succ hnum
      obtain ⟨s', mem', he, hremoved⟩ := ih hlisted hlisted.path_behind (.inr (.inl ⟨l₀, rfl⟩)) hnum' hfuel'
      refine ⟨s', mem', ?_, .cons hrest hr hlog hconfig hbytes hpages hremoved⟩
      rw [if_pos hr, hrec]
      dsimp only
      rw [if_neg hp0]
      exact he
    · have hnot : (mem.pages iter).canBeRecycled = false := by simpa using hr
      rw [List.append_cons] at h
      have hnum' : num + 1 ≤ (recyclablePages mem l₂).length := by
        rwa [recyclablePages, List.filter_cons, if_neg hr] at hnum
      obtain ⟨s', mem', he, hremoved⟩ := ih h hpath (.inr (.inl ⟨l₁, rfl⟩)) hnum' hfuel'
      refine ⟨s', mem', ?_, .skip hnot hremoved⟩
      rw [if_neg hr]
      exact he

/-- With a recyclable page in front of the list, the loop follows the null pointer before it. -/
theorem recycleFreeLoop_of_head (hnum : num ≠ 0) (hr : (mem.pages iter).canBeRecycled = true) :
    Segment.recycleFreeLoop fuel num iter 0 s mem = none := by
  cases fuel with
  | zero => rfl
  | succ fuel =>
    rw [Segment.recycleFreeLoop, if_neg hnum]
    by_cases h0 : iter = 0
    · rw [if_pos h0]
    · rw [if_neg h0, if_pos hr]
      rfl

/-- With too few recyclable pages ahead, the loop follows a null pointer. -/
theorem recycleFreeLoop_none (h : Listed s mem (l₁ ++ l₂)) (hpath : Path mem.getNext iter l₂ 0)
    (hprevious : iterPrevious = 0 ∨ ∃ l₀, l₁ = l₀ ++ [iterPrevious])
    (hnum : (recyclablePages mem l₂).length < num) :
    Segment.recycleFreeLoop fuel num iter iterPrevious s mem = none := by
  induction l₂ generalizing fuel num iter iterPrevious s mem l₁ with
  | nil =>
    cases fuel with
    | zero => rfl
    | succ fuel => rw [Segment.recycleFreeLoop, if_neg (by omega), if_pos (path_nil.mp hpath)]
  | cons a l₂ ih =>
    obtain _ | fuel := fuel
    · rfl
    obtain ⟨num, rfl⟩ := Nat.exists_eq_succ_of_ne_zero (by omega : num ≠ 0)
    obtain ⟨rfl, hpath⟩ := hpath
    have ha : iter ≠ 0 := h.ne_zero (by simp)
    rw [Segment.recycleFreeLoop, if_neg (Nat.succ_ne_zero num), if_neg ha]
    by_cases hr : (mem.pages iter).canBeRecycled = true
    · obtain ⟨s₁, mem₁, hrec, hlisted, _, _, _, hpages⟩ := h.recycleLogicalPage
      rw [if_pos hr, hrec]
      dsimp only
      rcases hprevious with hp | ⟨l₀, rfl⟩
      · rw [if_pos hp]
      · have hp0 : iterPrevious ≠ 0 := h.ne_zero (by simp)
        rw [if_neg hp0]
        refine ih hlisted hlisted.path_behind (.inr ⟨l₀, rfl⟩) ?_
        rw [recyclablePages, List.filter_cons, if_pos hr, List.length_cons] at hnum
        rw [recyclablePages_congr (flags_of_relinked hpages)]
        exact Nat.lt_of_succ_lt_succ hnum
    · rw [List.append_cons] at h
      rw [if_neg hr]
      refine ih h hpath (.inr ⟨l₁, rfl⟩) ?_
      rwa [recyclablePages, List.filter_cons, if_neg hr] at hnum

end

/-- The call removes what exceeds the threshold exactly when nothing does, or when enough of the
pages are recyclable and the first one is not. -/
theorem recycleFreeLogicalPages_exact_iff {s : Segment} {mem : Memory} {l : List Nat} (h : Listed s mem l)
    (ht : s.pageRecyclingThreshold < 2^64) :
    RecyclesAboveThreshold s mem l ↔ s.pageRecyclingThreshold = s.logicalPageCount ∨
      s.pageRecyclingThreshold < s.logicalPageCount ∧ (mem.pages s.head).canBeRecycled = false ∧
        s.logicalPageCount - s.pageRecyclingThreshold ≤ (recyclablePages mem l).length := by
  have hlt := h.length_lt
  have hcount := h.count
  have hle : (recyclablePages mem l).length ≤ l.length := List.length_filter_le _ _
  have hfuel : l.length < walkLimit := by
    unfold walkLimit
    exact hlt
  have hpath := h.paths.1
  rw [← List.nil_append l] at h
  have hcall : ∀ num, sub64 s.logicalPageCount s.pageRecyclingThreshold = num →
      Segment.recycleFreeLogicalPages s mem = Segment.recycleFreeLoop walkLimit num s.head 0 s mem := by
    rintro num rfl
    rfl
  unfold RecyclesAboveThreshold
  rcases lt_trichotomy s.pageRecyclingThreshold s.logicalPageCount with hbelow | heq | habove
  · have hne : s.logicalPageCount - s.pageRecyclingThreshold ≠ 0 := by omega
    rw [hcall _ (sub64_of_le hbelow.le (by omega)), or_iff_right (Nat.ne_of_lt hbelow), and_iff_right hbelow]
    constructor
    · rintro ⟨s', mem', he, _⟩
      constructor
      · by_contra hhead
        rw [recycleFreeLoop_of_head hne (by simpa using hhead)] at he
        cases he
      · by_contra hfew
        rw [recycleFreeLoop_none h hpath (.inl rfl) (by omega)] at he
        cases he
    · rintro ⟨hhead, henough⟩
      exact recycleFreeLoop_removes h hpath (.inr (.inr ⟨rfl, hhead⟩)) henough hfuel
  · rw [hcall 0 (by rw [heq, sub64_of_le le_rfl (by omega), Nat.sub_self]), heq, Nat.sub_self]
    exact ⟨fun _ => .inl rfl, fun _ => recycleFreeLoop_zero h hfuel⟩
  · -- the difference wraps to more pages than there are
    have hwraps : (recyclablePages mem l).length < sub64 s.logicalPageCount s.pageRecyclingThreshold := by
      unfold sub64
      omega
    rw [hcall _ rfl, recycleFreeLoop_none h hpath (.inl rfl) hwraps]
    constructor
    · rintro ⟨s', mem', he, _⟩
      cases he
    · intro hc
      omega

theorem listed_afterCalls {cs : List Call} {sys : System} (h : afterCalls cs = some sys) :
    ∃ l, sys.Lists l ∧ Listed sys.segment sys.memory l := by
  obtain ⟨g, hg⟩ := (reachable_afterCalls h).inv fun _ _ hr => hr
  exact ⟨g.pages, hg.lists, hg.segment.listed⟩

/-- The chunk of the second page is given back, the one of the first is not. -/
theorem recycleFreeLogicalPages_exact_iff_of_two :
    ∃ sys l, afterCalls [.allocate 4032, .allocate 4032, .deallocate ⟨12352, 4032⟩] = some sys ∧
      Listed sys.segment sys.memory l ∧
      (RecyclesAboveThreshold sys.segment sys.memory l ↔
        sys.segment.pageRecyclingThreshold = sys.segment.logicalPageCount ∨
        sys.segment.pageRecyclingThreshold < sys.segment.logicalPageCount ∧
          (sys.memory.pages sys.segment.head).canBeRecycled = false ∧
          sys.segment.logicalPageCount - sys.segment.pageRecyclingThreshold ≤
            (recyclablePages sys.memory l).length) := by
  obtain ⟨sys, hsys⟩ := Option.isSome_iff_exists.mp (by decide +kernel :
    (afterCalls [.allocate 4032, .allocate 4032, .deallocate ⟨12352, 4032⟩]).isSome = true)
  have ht : (afterCalls [.allocate 4032, .allocate 4032, .deallocate ⟨12352, 4032⟩]).map
      (fun sys => sys.segment.pageRecyclingThreshold) = some 1 := by decide +kernel
  rw [hsys] at ht
  simp only [Option.map_some, Option.some.injEq] at ht
  obtain ⟨l, _, hlisted⟩ := listed_afterCalls hsys
  exact ⟨sys, l, hsys, hlisted, recycleFreeLogicalPages_exact_iff hlisted (by rw [ht]; decide)⟩

/-- The first of two pages is emptied, and one page is above the threshold: the call follows null. -/
theorem recyclable_head_not_removed :
    ∃ sys, Reachable ⟨.singleThread, LogicalPage.pageType, .deferred, false⟩ LogicalPage.laws Routine sys ∧
      Listed sys.segment sys.memory [8192, 12288] ∧ sys.segment.pageRecyclingThreshold = 1 ∧
      recyclablePages sys.memory [8192, 12288] = [8192] ∧
      Segment.recycleFreeLogicalPages sys.segment sys.memory = none ∧
      ¬ RecyclesAboveThreshold sys.segment sys.memory [8192, 12288] := by
  obtain ⟨sys, hsys⟩ := Option.isSome_iff_exists.mp (by decide +kernel :
    (afterCalls [.allocate 4032, .deallocate ⟨8256, 4032⟩]).isSome = true)
  have hlist : (afterCalls [.allocate 4032, .deallocate ⟨8256, 4032⟩]).map (fun sys =>
      (sys.segment.head, sys.memory.getNext 8192, sys.memory.getNext 12288)) = some (8192, 12288, 0) := by
    decide +kernel
  have hpages : (afterCalls [.allocate 4032, .deallocate ⟨8256, 4032⟩]).map (fun sys =>
      (sys.segment.pageRecyclingThreshold, recyclablePages sys.memory [8192, 12288])) = some (1, [8192]) := by
    decide +kernel
  rw [hsys] at hlist hpages
  simp only [Option.map_some, Option.some.injEq, Prod.mk.injEq] at hlist hpages
  obtain ⟨l, hl, hlisted⟩ := listed_afterCalls hsys
  obtain rfl : l = [8192, 12288] := hl.1.unique hlist hl.2 (by decide)
  have hhead : (sys.memory.pages sys.segment.head).canBeRecycled = true := by
    have hmem : 8192 ∈ recyclablePages sys.memory [8192, 12288] := by rw [hpages.2]; exact List.mem_singleton_self _
    rw [hlist.1]
    exact (List.mem_filter.mp hmem).2
  have hcount := hlisted.count
  have hnone : Segment.recycleFreeLogicalPages sys.segment sys.memory = none := by
    refine recycleFreeLoop_of_head ?_ hhead
    rw [hpages.1, hcount]
    decide +kernel
  refine ⟨sys, reachable_afterCalls hsys, hlisted, hpages.1, hpages.2, hnone, ?_⟩
  rintro ⟨s', mem', he, _⟩
  rw [hnone] at he
  cases he

end Metamalloc.Segments
