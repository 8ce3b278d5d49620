import Metamalloc.Segments.SegmentRuns

/-! Which pages a segment gives back to the system, and when. -/
namespace Metamalloc.Segments
open Library.Word64 Library.ByteMemory Library.LinkedList Pages

/-- The arena places its buffers as the system calls do. -/
def GranularityAligned (arena : ArenaAnswers) : Prop := ∀ n, arena.request n % 4096 = 0

/-- Steps up to and including the destruction of a segment that recycles at once. -/
def Recycles (_ : System) : Action → Prop
  | .allocate _ arena => GranularityAligned arena
  | .finish arena => GranularityAligned arena
  | .recycleFreeLogicalPages => False
  | _ => True

/-- A step has released these pages: they were listed, and no pointer to them is left. -/
structure UnusedReleased (sys sys' : System) (l : List Nat) (released : List Nat) : Prop where
  log : sys'.memory.released =
    released.map (fun a => (a, sys.segment.logicalPageSize)) ++ sys.memory.released
  listed : ∀ a ∈ released, a ∈ l
  unused : ∀ a ∈ released, ∀ p ∈ sys'.pointersOut,
    onPage sys.segment.logicalPageSize a p = false

section
variable {T : SegmentType} {L : PageLaws T.page} {sys sys' : System} {g g' : Ghost} {x : Allocation}
  {action : Action} {a n fuel iter : Nat} {l : List Nat} {mem : Memory}

theorem sweep_spec (hpath : Path mem.getNext iter l 0) (h0 : 0 ∉ l) (hf : l.length < fuel) :
    Segment.sweep n fuel iter mem = some { mem with
      released := ((l.filter fun a => (mem.pages a).usedSize = 0).reverse.map fun a => (a, n)) ++
        mem.released } := by
  induction l generalizing fuel iter mem with
  | nil =>
    obtain ⟨fuel, rfl⟩ : ∃ k, fuel = k + 1 := ⟨fuel - 1, by simp at hf; omega⟩
    rw [Segment.sweep, if_pos (path_nil.mp hpath)]
    rfl
  | cons b l ih =>
    obtain ⟨fuel, rfl⟩ : ∃ k, fuel = k + 1 := ⟨fuel - 1, by simp at hf; omega⟩
    obtain ⟨rfl, hpath⟩ := hpath
    have hb : iter ≠ 0 := fun e => h0 (e ▸ List.mem_cons_self)
    have hl : 0 ∉ l := fun hm => h0 (List.mem_cons_of_mem _ hm)
    have hlen : l.length < fuel := by simpa using hf
    rw [Segment.sweep, if_neg hb]
    by_cases hu : (mem.pages iter).usedSize = 0
    · have hpath' : Path (mem.releaseToSystem iter n).getNext (mem.getNext iter) l 0 := hpath
      rw [if_pos hu, ih hpath' hl hlen, List.filter_cons_of_pos (by simpa using hu), List.reverse_cons,
        List.map_append, List.append_assoc]
      rfl
    · rw [if_neg hu, ih hpath hl hlen, List.filter_cons_of_neg (by simpa using hu)]

/-- The destruction of a segment releases its empty pages. -/
theorem SystemInv.releasePages (h : SystemInv T L sys g) :
    Segment.releasePages sys.segment sys.memory = some ({ sys.segment with head := 0, tail := 0 },
      { sys.memory with released :=
          ((g.pages.filter fun a => (sys.memory.pages a).usedSize = 0).reverse.map
            fun a => (a, sys.segment.logicalPageSize)) ++ sys.memory.released }) := by
  rw [Segment.releasePages, sweep_spec h.lists.1 h.lists.2 h.segment.length_lt_walkLimit]
  rfl

theorem SystemInv.not_onPage (h : SystemInv T L sys g) (ha : a ∈ g.pages) (hempty : g.owned a = [])
    {p : Nat} (hp : p ∈ sys.pointersOut) : onPage sys.segment.logicalPageSize a p = false := by
  have hperm := h.owned_perm ha
  rw [hempty, List.map_nil] at hperm
  have hnil := List.nil_perm.mp hperm
  rw [List.filter_eq_nil_iff] at hnil
  simpa using hnil p hp

theorem SystemInv.exists_onPage (h : SystemInv T L sys g) (ha : a ∈ g.pages) (hne : g.owned a ≠ []) :
    ∃ p ∈ sys.pointersOut, onPage sys.segment.logicalPageSize a p = true := by
  obtain ⟨x, rest, hx⟩ := List.exists_cons_of_ne_nil hne
  have hperm := h.owned_perm ha
  rw [hx, List.map_cons] at hperm
  exact ⟨x.ptr, List.mem_filter.mp (hperm.subset List.mem_cons_self)⟩

/-- An aligned buffer always takes page objects. -/
theorem not_failed {arena : ArenaAnswers} {size n b : Nat} {s : Segment} {m : Mem}
    (hg : Geometry T s.toSegmentConfig) (L : PageLaws T.page) (ha : b % 4096 = 0)
    (hb : Granted T arena size s n b) (hfresh : FreshBuffer T s.toSegmentConfig l b n)
    (hfail : T.page.create (b + T.page.objectSize) (s.logicalPageSize - T.page.objectSize)
      s.sizeClass m = none) : False := by
  obtain ⟨_, _, _, hn, _, hb0⟩ := hb
  obtain ⟨buffer, m₀, hc⟩ := hg.creatable
  have hle : s.logicalPageSize ≤ n * s.logicalPageSize := Nat.le_mul_of_pos_left _ hn
  have hin := hfresh.inside
  have hobj := hg.object_lt
  have hsome := L.create_aligned hc (b + T.page.objectSize) m (by omega) (by omega) (by omega)
    (by rwa [Nat.add_sub_cancel])
  rw [hfail] at hsome
  cases hsome

theorem aligned_of_granted {arena : ArenaAnswers} {size n b : Nat} {s : Segment}
    (harena : T.concurrency ≠ .threadLocal → GranularityAligned arena)
    (hb : Granted T arena size s n b) : b % 4096 = 0 := by
  obtain ⟨hlocal, _, _, _, hreq, _⟩ := hb
  rw [← hreq]
  exact harena hlocal _

/-- A call of `allocate_internal` releases nothing and only adds to the list. -/
theorem AllocateOutcome.logs {arena : ArenaAnswers} {size ret : Nat} {s s' : Segment} {mem' : Memory}
    {l' : List Nat} {owned owned' : Nat → List Allocation}
    (harena : T.concurrency ≠ .threadLocal → GranularityAligned arena) (h : SegmentInv T L s mem l owned)
    (ho : AllocateOutcome T L arena size s mem l owned ret s' mem' l' owned') :
    mem'.released = mem.released ∧ (∃ new, l' = l ++ new ∧ mem'.created = new.reverse ++ mem.created) ∧
      ∀ a, owned a ≠ [] → owned' a ≠ [] := by
  have hkeep : ∀ {b : Nat} {x : Allocation} (a), owned a ≠ [] →
      Function.update owned b (x :: owned b) a ≠ [] := by
    intro b x a ha
    rw [Function.update_apply]
    split
    · exact List.cons_ne_nil _ _
    · exact ha
  cases ho with
  | refused => exact ⟨rfl, ⟨[], by simp, rfl⟩, fun _ ha => ha⟩
  | served _ hs => exact ⟨hs.released, ⟨[], by simp, hs.created⟩, hkeep⟩
  | failed hb hfresh hfail => exact (not_failed h.geometry L (aligned_of_granted harena hb) hb hfresh hfail).elim
  | grown _ hg => exact ⟨hg.released, ⟨_, rfl, hg.created⟩, fun _ ha => ha⟩
  | grownServed _ hg hs =>
    exact ⟨hs.released.trans hg.released, ⟨_, rfl, hs.created.trans hg.created⟩, hkeep⟩

theorem StepEffect.config (he : StepEffect T L sys g action sys' g') (h : SystemInv T L sys g) :
    sys'.segment.toSegmentConfig = sys.segment.toSegmentConfig := by
  cases he with
  | quiet _ _ _ hconfig => exact hconfig
  | freed _ hf => exact hf.config
  | allocated _ ho => exact (ho.shared h.segment).2.2.1

/-- The arena a step may ask places its buffers as the system calls do. -/
def AsksAlignedArena (T : SegmentType) (action : Action) : Prop :=
  ∀ size arena, action = .allocate size arena ∨ action = .finish arena →
    T.concurrency ≠ .threadLocal → GranularityAligned arena

theorem Recycles.asksAlignedArena (hr : Recycles sys action) : AsksAlignedArena T action := by
  rintro size arena (rfl | rfl) _
  · exact hr
  · exact hr

/-- A step before the destruction: the pages it takes off the list are released and unused. -/
theorem StepEffect.unusedReleased (he : StepEffect T L sys g action sys' g') (h : SystemInv T L sys g)
    (h' : SystemInv T L sys' g') (hr : AsksAlignedArena T action) :
    ∃ released new, UnusedReleased sys sys' g.pages released ∧
      (g.pages ++ new).Perm (g'.pages ++ released) ∧
      sys'.memory.created = new.reverse ++ sys.memory.created := by
  cases he with
  | quiet hpages _ _ _ _ hcreated hreleased =>
    exact ⟨[], [], ⟨hreleased, by simp, by simp⟩, by rw [hpages], hcreated⟩
  | @freed a x rest hp hf howned =>
    rcases hf.outcome with ⟨_, hl, hlog⟩ | ⟨_, hl, hlog⟩
    · have ha : a ∈ g.pages := h.segment.mem_of_owned (hp.mem_iff.mpr List.mem_cons_self)
      refine ⟨[a], [], ⟨hlog, by simpa using ha, ?_⟩, ?_, hf.created⟩
      · intro c hca p hp'
        obtain rfl := List.mem_singleton.mp hca
        obtain ⟨b, hb, _, _, _, hon⟩ := h'.out_on_page hp'
        rw [hl, h.segment.listed.ring.nodup_list.mem_erase_iff] at hb
        have hap := h.segment.apart_of_ne hb.2 ha hb.1
        have hsize : sys'.segment.logicalPageSize = sys.segment.logicalPageSize :=
          congrArg SegmentConfig.logicalPageSize hf.config
        simp only [onPage, hsize, Bool.and_eq_true, decide_eq_true_eq, PagesApart] at hon hap
        simp only [onPage, Bool.and_eq_false_iff, decide_eq_false_iff_not]
        omega
      · rw [List.append_nil, hl]
        exact (List.perm_cons_erase ha).trans (List.perm_append_singleton a _).symm
    · exact ⟨[], [], ⟨hlog, by simp, by simp⟩, by rw [hl], hf.created⟩
  | allocated haction ho =>
    obtain ⟨hlog, ⟨new, hl, hcreated⟩, _⟩ := ho.logs (hr _ _ (haction.imp_right And.left)) h.segment
    exact ⟨[], new, ⟨hlog, by simp, by simp⟩, by rw [hl, List.append_nil], hcreated⟩

theorem UnusedReleased.addresses {released : List Nat} (hu : UnusedReleased sys sys' l released) :
    sys'.memory.released.map Prod.fst = released ++ sys.memory.released.map Prod.fst := by
  rw [hu.log, List.map_append, List.map_map]
  exact congrArg (· ++ _) (List.map_id released)

/-- A step before the destruction keeps to the threshold, and releases what it empties above it. -/
theorem StepEffect.threshold (he : StepEffect T L sys g action sys' g') (h : SystemInv T L sys g)
    (h' : SystemInv T L sys' g') (hr : AsksAlignedArena T action) :
    min sys.segment.logicalPageCount sys.segment.pageRecyclingThreshold ≤
        sys'.segment.logicalPageCount ∧
      (T.recycling = .immediate → sys.segment.pageRecyclingThreshold < sys.segment.logicalPageCount →
        ∀ a ∈ g.pages, g.owned a ≠ [] →
          (∀ p ∈ sys'.pointersOut, onPage sys'.segment.logicalPageSize a p = false) →
          g'.pages = g.pages.erase a ∧
            sys'.memory.released = (a, sys.segment.logicalPageSize) :: sys.memory.released) := by
  -- A page that still has pointers out after the step is no matter of the second part.
  have hkept : ∀ {a : Nat} {P : Prop}, a ∈ g'.pages → g'.owned a ≠ [] →
      (∀ p ∈ sys'.pointersOut, onPage sys'.segment.logicalPageSize a p = false) → P := by
    intro a P ha hne hnone
    obtain ⟨p, hp, hon⟩ := h'.exists_onPage ha hne
    rw [hnone p hp] at hon
    cases hon
  have hcount := h.segment.listed.count
  have hcount' := h'.segment.listed.count
  cases he with
  | quiet hpages howned hsegment =>
    refine ⟨by omega, fun _ _ a ha hne hnone => ?_⟩
    exact hkept (by rwa [hpages]) (by rwa [howned]) hnone
  | @freed b x rest hp hf howned =>
    have hb : b ∈ g.pages := h.segment.mem_of_owned (hp.mem_iff.mpr List.mem_cons_self)
    rcases hf.outcome with ⟨⟨_, _, hlt⟩, hl, hlog⟩ | ⟨hnot, hl, hlog⟩
    · have hlen := List.length_erase_of_mem hb
      rw [← hl] at hlen
      refine ⟨by omega, fun _ _ a ha hne hnone => ?_⟩
      by_cases hab : a = b
      · subst hab
        exact ⟨hl, hlog⟩
      · refine hkept ?_ ?_ hnone
        · rw [hl, h.segment.listed.ring.nodup_list.mem_erase_iff]
          exact ⟨hab, ha⟩
        · rwa [howned, Function.update_of_ne hab]
    · rw [hl] at hcount'
      refine ⟨by omega, fun himm hlt a ha hne hnone => ?_⟩
      refine hkept (by rwa [hl]) ?_ hnone
      by_cases hab : a = b
      · subst hab
        rw [howned, Function.update_self]
        exact fun hrest => hnot ⟨hrest, himm, hlt⟩
      · rwa [howned, Function.update_of_ne hab]
  | allocated haction ho =>
    obtain ⟨_, ⟨new, hl, _⟩, hmono⟩ := ho.logs (hr _ _ (haction.imp_right And.left)) h.segment
    rw [hl, List.length_append] at hcount'
    refine ⟨by omega, fun _ _ a ha hne hnone => ?_⟩
    exact hkept (by rw [hl]; exact List.mem_append_left _ ha) (hmono a hne) hnone

def Destroys (sys : System) : Action → Prop
  | .destroy => True
  | .finish _ => ∃ ret, sys.control = .drained .destroy ret
  | _ => False

theorem Recycles.routine (hr : Recycles sys action) (hd : ¬ Destroys sys action) : Routine sys action := by
  cases action with
  | destroy => exact absurd trivial hd
  | recycleFreeLogicalPages => exact hr
  | finish arena => exact fun ret he => hd ⟨ret, he⟩
  | _ => trivial

theorem destroys_perform (hd : Destroys sys action) : sys.perform T L action =
    (Segment.releasePages sys.segment sys.memory).map fun (s, mem) =>
      { sys with segment := s, memory := mem, control := .destroyed } := by
  cases action with
  | destroy => rfl
  | finish arena =>
    obtain ⟨ret, hcontrol⟩ := hd
    simp only [System.perform, hcontrol]
  | _ => cases hd

/-- The final sweep releases the pages nobody has a pointer to. -/
theorem SystemInv.destroys (h : SystemInv T L sys g) (hd : Destroys sys action)
    (hp : sys.perform T L action = some sys') :
    (∃ released, UnusedReleased sys sys' g.pages released ∧ released.Subperm g.pages) ∧
      sys'.memory.created = sys.memory.created ∧ sys'.control = .destroyed ∧ sys'.segment.head = 0 := by
  rw [destroys_perform hd, h.releasePages] at hp
  cases hp
  refine ⟨⟨_, ⟨rfl, fun a ha => ?_, fun a ha p hp => ?_⟩, ?_⟩, rfl, rfl, rfl⟩
  · exact List.mem_of_mem_filter (List.mem_reverse.mp ha)
  · obtain ⟨hal, hused⟩ := List.mem_filter.mp (List.mem_reverse.mp ha)
    have hempty := (h.segment.used_eq_zero hal).mp (of_decide_eq_true hused)
    refine h.not_onPage hal hempty ?_
    simp only [System.pointersOut, Control.pointers, List.append_nil] at hp
    exact List.mem_append_left _ hp
  · exact (List.reverse_perm _).subperm.trans List.filter_sublist.subperm

/-- The pages obtained are the listed ones and the released ones, until the segment is destroyed. -/
def PagesAccounted (T : SegmentType) (L : PageLaws T.page) (sys : System) : Prop :=
  (∃ g, SystemInv T L sys g ∧ sys.memory.created.Perm (g.pages ++ sys.memory.released.map Prod.fst)) ∨
    sys.control = .destroyed ∧ sys.segment.head = 0 ∧
      (sys.memory.released.map Prod.fst).Subperm sys.memory.created

theorem PagesAccounted.subperm (h : PagesAccounted T L sys) :
    (sys.memory.released.map Prod.fst).Subperm sys.memory.created := by
  rcases h with ⟨g, _, hc⟩ | ⟨_, _, hc⟩
  · exact (List.sublist_append_right ..).subperm.trans hc.symm.subperm
  · exact hc

/-- Once the segment is gone, clients can only write to memory. -/
theorem allowed_of_destroyed (h : sys.control = .destroyed) (ha : sys.Allowed T action)
    (hr : Recycles sys action) : ∃ address value, action = .store address value := by
  cases action <;> simp_all [System.Allowed, Recycles]

theorem PagesAccounted.step (h : PagesAccounted T L sys) (ha : sys.Allowed T action)
    (hr : Recycles sys action) (hp : sys.perform T L action = some sys') :
    PagesAccounted T L sys' ∧ ∃ l, sys.Lists l ∧ (∃ released, UnusedReleased sys sys' l released) := by
  rcases h with ⟨g, hg, hc⟩ | ⟨hcontrol, hhead, hc⟩
  · by_cases hd : Destroys sys action
    · obtain ⟨⟨released, hu, hsub⟩, hcreated, hcontrol, hhead⟩ := hg.destroys hd hp
      refine ⟨.inr ⟨hcontrol, hhead, ?_⟩, g.pages, hg.lists, released, hu⟩
      rw [hu.addresses, hcreated]
      exact ((List.subperm_append_right _).mpr hsub).trans hc.symm.subperm
    · obtain ⟨g', hg', heffect⟩ := step_ok hg ha (hr.routine hd) hp
      obtain ⟨released, new, hu, hl, hcreated⟩ := heffect.unusedReleased hg hg' hr.asksAlignedArena
      refine ⟨.inl ⟨g', hg', ?_⟩, g.pages, hg.lists, released, hu⟩
      rw [hu.addresses, hcreated, ← List.append_assoc]
      calc (new.reverse ++ sys.memory.created).Perm (new ++ (g.pages ++ sys.memory.released.map Prod.fst)) :=
            (List.reverse_perm new).append hc
        _ |>.Perm (g.pages ++ new ++ sys.memory.released.map Prod.fst) := by
            rw [← List.append_assoc]
            exact List.perm_append_comm.append_right _
        _ |>.Perm (g'.pages ++ released ++ sys.memory.released.map Prod.fst) := hl.append_right _
  · obtain ⟨address, value, rfl⟩ := allowed_of_destroyed hcontrol ha hr
    cases hp
    exact ⟨.inr ⟨hcontrol, hhead, hc⟩, [], ⟨hhead, List.not_mem_nil⟩, [], rfl, by simp, by simp⟩

end

/-- Both chunks are given back, and the owner, which keeps the one of the second page for its
caller, is about to empty the first page. -/
def firstPageToEmpty : List Action :=
  request 4032 ++ request 4032 ++ giveBack ⟨8256, 4032⟩ ++ giveBack ⟨12352, 4032⟩ ++
    [.drain (.allocate 4032), .pop, .pop]

end Metamalloc.Segments
