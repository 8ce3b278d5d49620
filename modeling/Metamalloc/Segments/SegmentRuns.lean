import Metamalloc.Segments.SegmentSystem

/-! What holds along every run of a segment. The ghost state lists the pages and says
page by page which allocations are out; every one of these is with a client, on its way
back, in the queue or in the hands of the owner. -/
namespace Metamalloc.Segments
open Library.Word64 Library.ByteMemory Library.LinkedList Pages

structure Ghost where
  pages : List Nat
  owned : Nat → List Allocation
  queued : List Allocation
  inHand : List Allocation

/-- The pointer the owner keeps for the caller of `allocate`. -/
def Control.ret : Control → Nat
  | .draining _ ret => ret
  | .freeing _ ret _ => ret
  | .drained _ ret => ret
  | _ => 0

structure SystemInv (T : SegmentType) (L : PageLaws T.page) (sys : System) (g : Ghost) : Prop where
  segment : SegmentInv T L sys.segment sys.memory g.pages g.owned
  queue : sys.segment.deallocationQueue = g.queued.map Allocation.ptr
  hand : sys.control.pointers = g.inHand.map Allocation.ptr
  kept : sys.control.ret ≠ 0 → T.page.supportsAnySize = false
  shared : ∀ x, (g.pages.flatMap g.owned).count x =
    sys.live.count x + sys.deallocating.count x + g.queued.count x + g.inHand.count x

section
variable {l : List Nat} {owned : Nat → List Allocation} {a : Nat} {x : Allocation}
  {v : List Allocation}

theorem flatMap_update_of_not_mem (ha : a ∉ l) :
    l.flatMap (Function.update owned a v) = l.flatMap owned := by
  induction l with
  | nil => rfl
  | cons b l ih =>
    have hb : b ≠ a := fun e => ha (e ▸ List.mem_cons_self)
    rw [List.flatMap_cons, List.flatMap_cons, Function.update_of_ne hb,
      ih fun hm => ha (List.mem_cons_of_mem _ hm)]

theorem count_flatMap_update (hn : l.Nodup) (ha : a ∈ l) :
    (l.flatMap (Function.update owned a v)).count x + (owned a).count x =
      (l.flatMap owned).count x + v.count x := by
  obtain ⟨l₁, l₂, rfl⟩ := List.append_of_mem ha
  obtain ⟨_, h₂, h₁₂⟩ := List.nodup_append.mp hn
  have ha₁ : a ∉ l₁ := fun hm => h₁₂ a hm a List.mem_cons_self rfl
  have ha₂ : a ∉ l₂ := (List.nodup_cons.mp h₂).1
  simp only [List.flatMap_append, List.flatMap_cons, List.count_append, Function.update_self,
    flatMap_update_of_not_mem ha₁, flatMap_update_of_not_mem ha₂]
  omega

theorem count_flatMap_erase (ha : owned a = []) :
    ((l.erase a).flatMap owned).count x = (l.flatMap owned).count x := by
  induction l with
  | nil => rfl
  | cons b l ih =>
    by_cases hb : b = a
    · subst hb
      rw [List.erase_cons_head, List.flatMap_cons, ha, List.nil_append]
    · rw [List.erase_cons_tail (by simpa using hb), List.flatMap_cons, List.flatMap_cons,
        List.count_append, List.count_append, ih]

theorem filter_flatMap_eq {q : Allocation → Bool} (hn : l.Nodup) (ha : a ∈ l)
    (hself : ∀ x ∈ owned a, q x = true) (hother : ∀ b ∈ l, b ≠ a → ∀ x ∈ owned b, q x = false) :
    (l.flatMap owned).filter q = owned a := by
  obtain ⟨l₁, l₂, rfl⟩ := List.append_of_mem ha
  obtain ⟨_, h₂, h₁₂⟩ := List.nodup_append.mp hn
  have hnil : ∀ l' : List Nat, (∀ b ∈ l', b ∈ l₁ ++ a :: l₂ ∧ b ≠ a) → (l'.flatMap owned).filter q = [] := by
    intro l' hl'
    rw [List.filter_eq_nil_iff]
    intro x hx
    obtain ⟨b, hb, hxb⟩ := List.mem_flatMap.mp hx
    rw [hother b (hl' b hb).1 (hl' b hb).2 x hxb]
    decide
  rw [List.flatMap_append, List.flatMap_cons, List.filter_append, List.filter_append,
    hnil l₁ fun b hb => ⟨List.mem_append_left _ hb, fun e => h₁₂ b hb a List.mem_cons_self e⟩,
    hnil l₂ fun b hb => ⟨by simp [hb], fun e => (List.nodup_cons.mp h₂).1 (e ▸ hb)⟩,
    List.filter_eq_self.mpr hself, List.nil_append, List.append_nil]

theorem flatMap_of_empty {new : List Nat} (h : ∀ a ∈ new, owned a = []) :
    (l ++ new).flatMap owned = l.flatMap owned := by
  rw [List.flatMap_append, List.flatMap_eq_nil_iff.mpr h, List.append_nil]

end

namespace SystemInv
variable {T : SegmentType} {L : PageLaws T.page} {sys sys' : System} {g g' : Ghost} {x : Allocation}
  {a : Nat}

theorem owner (h : SystemInv T L sys g)
    (hx : 0 < sys.live.count x + sys.deallocating.count x + g.queued.count x + g.inHand.count x) :
    ∃ a ∈ g.pages, x ∈ g.owned a := by
  rw [← h.shared x, List.count_pos_iff, List.mem_flatMap] at hx
  exact hx

theorem ptr_ne_zero (h : SystemInv T L sys g) (hx : x ∈ g.owned a) : x.ptr ≠ 0 := by
  have ha := h.segment.listed.ne_zero (h.segment.mem_of_owned hx)
  have hin := h.segment.owned_inside hx
  omega

theorem head_ne_zero (h : SystemInv T L sys g) (ha : a ∈ g.pages) : sys.segment.head ≠ 0 := by
  intro h0
  rw [h.segment.listed.head_eq_zero_iff.mp h0] at ha
  cases ha

theorem lists (h : SystemInv T L sys g) : sys.Lists g.pages :=
  ⟨h.segment.listed.paths.1, h.segment.listed.ring.sentinel_not_mem⟩

theorem eq_of_lists (h : SystemInv T L sys g) {l : List Nat} (hl : sys.Lists l) : l = g.pages :=
  hl.1.unique h.lists.1 hl.2 h.lists.2

/-- The pointers that are out are those the pages have given out. -/
theorem out_perm (h : SystemInv T L sys g) :
    ((g.pages.flatMap g.owned).map Allocation.ptr).Perm sys.pointersOut := by
  have hp : (g.pages.flatMap g.owned).Perm (sys.live ++ sys.deallocating ++ g.queued ++ g.inHand) := by
    refine List.perm_iff_count.mpr fun x => ?_
    simp only [List.count_append, h.shared x]
  rw [System.pointersOut, h.queue, h.hand]
  simpa only [List.map_append] using hp.map Allocation.ptr

theorem out_on_page (h : SystemInv T L sys g) {p : Nat} (hp : p ∈ sys.pointersOut) :
    ∃ a ∈ g.pages, ∃ x ∈ g.owned a, x.ptr = p ∧ onPage sys.segment.logicalPageSize a p = true := by
  obtain ⟨x, hx, rfl⟩ := List.mem_map.mp (h.out_perm.mem_iff.mpr hp)
  obtain ⟨a, ha, hxa⟩ := List.mem_flatMap.mp hx
  have hin := h.segment.owned_inside hxa
  refine ⟨a, ha, x, hxa, rfl, ?_⟩
  simp only [onPage, Bool.and_eq_true, decide_eq_true_eq]
  omega

/-- What one page has given out is what is out there of its pointers. -/
theorem owned_perm (h : SystemInv T L sys g) (ha : a ∈ g.pages) :
    ((g.owned a).map Allocation.ptr).Perm
      (sys.pointersOut.filter (onPage sys.segment.logicalPageSize a)) := by
  have hp := h.out_perm.filter (onPage sys.segment.logicalPageSize a)
  rw [List.filter_map, filter_flatMap_eq h.segment.listed.ring.nodup_list ha] at hp
  · exact hp
  · intro x hx
    have hin := h.segment.owned_inside hx
    simp only [onPage, Function.comp_apply, Bool.and_eq_true, decide_eq_true_eq]
    omega
  · intro b hb hne x hx
    have hin := h.segment.owned_inside hx
    have hap := h.segment.apart_of_ne hb ha hne
    simp only [PagesApart] at hap
    simp only [onPage, Function.comp_apply, Bool.and_eq_false_iff, decide_eq_false_iff_not]
    omega

theorem segment_queue (h : SystemInv T L sys g) (q : List Nat) :
    SegmentInv T L { sys.segment with deallocationQueue := q } sys.memory g.pages g.owned := by
  obtain ⟨hl, hg, hi, ha, hap, hf, hp, ho⟩ := h.segment
  exact ⟨hl.congr rfl rfl rfl hl.lastUsed fun _ _ => ⟨rfl, rfl⟩, hg, hi, ha, hap, hf, hp, ho⟩

end SystemInv

/-- What one step does to the pages: nothing, a deallocation or an allocation. -/
inductive StepEffect (T : SegmentType) (L : PageLaws T.page) (sys : System) (g : Ghost)
    (action : Action) (sys' : System) (g' : Ghost) : Prop
  | quiet (hpages : g'.pages = g.pages) (howned : g'.owned = g.owned)
      (hsegment : sys'.segment.logicalPageCount = sys.segment.logicalPageCount)
      (hconfig : sys'.segment.toSegmentConfig = sys.segment.toSegmentConfig)
      (hheaders : sys'.memory.pages = sys.memory.pages)
      (hcreated : sys'.memory.created = sys.memory.created)
      (hreleased : sys'.memory.released = sys.memory.released)
  | freed {a : Nat} {x : Allocation} {rest : List Allocation} (hp : (g.owned a).Perm (x :: rest))
      (hf : Freed T L sys.segment sys.memory g.pages g.owned a rest sys'.segment sys'.memory g'.pages)
      (howned : g'.owned = Function.update g.owned a rest)
  | allocated {arena : ArenaAnswers} {size ret : Nat}
      (haction : action = .allocate size arena ∨
        action = .finish arena ∧ sys.control = .drained (.allocate size) 0)
      (ho : AllocateOutcome T L arena size sys.segment sys.memory g.pages g.owned ret sys'.segment
        sys'.memory g'.pages g'.owned)

section
variable {T : SegmentType} {L : PageLaws T.page} {sys sys' : System} {g g' : Ghost} {x : Allocation}
  {action : Action}

/-- Freeing an allocation of the segment, whoever held it. -/
theorem SystemInv.deallocateInternal {a ptr : Nat} (h : SystemInv T L sys g) (hx : x ∈ g.owned a)
    (hfrees : Frees L sys.segment sys.memory a x ptr) :
    ∃ s' mem' l' rest, Segment.deallocateInternal T ptr sys.segment sys.memory = some (s', mem') ∧
      Segment.deallocateOnPage T a ptr sys.segment sys.memory = some (s', mem') ∧
      (g.owned a).Perm (x :: rest) ∧
      Freed T L sys.segment sys.memory g.pages g.owned a rest s' mem' l' ∧
      ∀ y, (l'.flatMap (Function.update g.owned a rest)).count y + [x].count y =
        (g.pages.flatMap g.owned).count y := by
  have hp := List.perm_cons_erase hx
  obtain ⟨s', mem', l', he, hpage, hf⟩ := h.segment.deallocateInternal hp hfrees
  refine ⟨s', mem', l', _, he, hpage, hp, hf, fun y => ?_⟩
  have hcount := @count_flatMap_update g.pages g.owned a y ((g.owned a).erase x)
    h.segment.listed.ring.nodup_list (h.segment.mem_of_owned hx)
  have hy := hp.count_eq y
  rw [List.count_cons] at hy
  have hl : (l'.flatMap (Function.update g.owned a ((g.owned a).erase x))).count y =
      (g.pages.flatMap (Function.update g.owned a ((g.owned a).erase x))).count y := by
    rcases hf.outcome with ⟨⟨hrest, _⟩, hl, _⟩ | ⟨_, hl, _⟩
    · rw [hl, count_flatMap_erase (by rw [Function.update_self, hrest])]
    · rw [hl]
  rw [hl, List.count_singleton]
  omega

/-- A call of `allocate_internal` hands at most one new allocation to its caller. -/
theorem AllocateOutcome.shared {arena : ArenaAnswers} {size ret : Nat} {s s' : Segment}
    {mem mem' : Memory} {l l' : List Nat} {owned owned' : Nat → List Allocation}
    (h : SegmentInv T L s mem l owned)
    (ho : AllocateOutcome T L arena size s mem l owned ret s' mem' l' owned') :
    SegmentInv T L s' mem' l' owned' ∧ s'.deallocationQueue = s.deallocationQueue ∧
      s'.toSegmentConfig = s.toSegmentConfig ∧
      ∀ y, (l'.flatMap owned').count y =
        (System.grant T L s.sizeClass size ret []).count y + (l.flatMap owned).count y := by
  have hempty : ∀ {new : List Nat} {s₁ : Segment} {mem₁ : Memory},
      Grown T L s mem l owned new s₁ mem₁ → (l ++ new).flatMap owned = l.flatMap owned := by
    intro new s₁ mem₁ hg
    refine flatMap_of_empty fun a ha => h.outside a fun hm => ?_
    have hnd := hg.inv.listed.ring.nodup_list
    exact (List.nodup_append.mp hnd).2.2 a hm a ha rfl
  have hserve : ∀ {l₁ : List Nat} {s₁ : Segment} {mem₁ mem₂ : Memory} {a : Nat},
      Served T L s₁ mem₁ l₁ owned size a ret mem₂ →
      ∀ y, (l₁.flatMap (Function.update owned a (⟨ret, L.granted s.sizeClass size⟩ :: owned a))).count y =
        (System.grant T L s.sizeClass size ret []).count y + (l₁.flatMap owned).count y := by
    intro l₁ s₁ mem₁ mem₂ a hs y
    have hc := @count_flatMap_update l₁ owned a y (⟨ret, L.granted s.sizeClass size⟩ :: owned a)
      hs.inv.listed.ring.nodup_list hs.page
    rw [System.grant, if_neg hs.ne_zero, List.count_cons, List.count_nil]
    rw [List.count_cons] at hc
    omega
  cases ho with
  | refused => exact ⟨h, rfl, rfl, fun y => by simp [System.grant]⟩
  | served _ hs => exact ⟨hs.inv, rfl, rfl, hserve hs⟩
  | failed _ _ _ hinv => exact ⟨hinv, rfl, rfl, fun y => by simp [System.grant]⟩
  | grown _ hg => exact ⟨hg.inv, hg.queue, hg.config, fun y => by simp [System.grant, hempty hg]⟩
  | grownServed _ hg hs =>
    have hclass := congrArg SegmentConfig.sizeClass hg.config
    refine ⟨?_, hg.queue, hg.config, fun y => ?_⟩
    · rw [← hclass]
      exact hs.inv
    · rw [hserve hs y, hempty hg]

theorem StepEffect.of_queue {q : List Nat} (hs : sys'.segment = { sys.segment with deallocationQueue := q })
    (hm : sys'.memory = sys.memory) (hpages : g'.pages = g.pages) (howned : g'.owned = g.owned) :
    StepEffect T L sys g action sys' g' :=
  .quiet hpages howned (by rw [hs]) (by rw [hs]) (by rw [hm]) (by rw [hm]) (by rw [hm])

/-- The result of a step: the new state keeps the invariant and the effect is one of those named. -/
def StepOk (T : SegmentType) (L : PageLaws T.page) (sys : System) (g : Ghost) (action : Action) : Prop :=
  ∃ sys' g', sys.perform T L action = some sys' ∧ SystemInv T L sys' g' ∧
    StepEffect T L sys g action sys' g'

theorem store_ok {address : Nat} {value : UInt8} (h : SystemInv T L sys g)
    (ha : sys.Allowed T (.store address value)) : StepOk T L sys g (.store address value) := by
  obtain ⟨x, hx, hb⟩ := ha
  obtain ⟨a, _, hxa⟩ := h.owner (x := x) (by have := List.count_pos_iff.mpr hx; omega)
  refine ⟨_, g, rfl, ⟨h.segment.store hxa hb value, h.queue, h.hand, h.kept, h.shared⟩, ?_⟩
  exact .quiet rfl rfl rfl rfl rfl rfl rfl

theorem callDeallocate_ok (h : SystemInv T L sys g) (ha : sys.Allowed T (.callDeallocate x)) :
    StepOk T L sys g (.callDeallocate x) := by
  obtain ⟨hx, _⟩ := ha
  obtain ⟨a, hal, _⟩ := h.owner (x := x) (by have := List.count_pos_iff.mpr hx; omega)
  refine ⟨_, g, if_neg (h.head_ne_zero hal), ⟨h.segment, h.queue, h.hand, h.kept, fun y => ?_⟩, ?_⟩
  · have hs := h.shared y
    have hc := (List.perm_cons_erase hx).count_eq y
    rw [List.count_cons] at hc
    simp only [List.count_cons]
    omega
  · exact .of_queue rfl rfl rfl rfl

theorem push_ok (h : SystemInv T L sys g) (ha : sys.Allowed T (.push x)) :
    StepOk T L sys g (.push x) := by
  obtain ⟨_, hx, _⟩ := ha
  refine ⟨_, { g with queued := x :: g.queued }, rfl,
    ⟨h.segment_queue _, ?_, h.hand, h.kept, fun y => ?_⟩, .of_queue rfl rfl rfl rfl⟩
  · rw [List.map_cons, ← h.queue]
    rfl
  · have hs := h.shared y
    have hc := (List.perm_cons_erase hx).count_eq y
    simp only [List.count_cons] at hc ⊢
    omega

theorem deallocateInternal_ok (h : SystemInv T L sys g)
    (ha : sys.Allowed T (.deallocateInternal x)) : StepOk T L sys g (.deallocateInternal x) := by
  obtain ⟨_, hx, _⟩ := ha
  obtain ⟨a, _, hxa⟩ := h.owner (x := x) (by have := List.count_pos_iff.mpr hx; omega)
  obtain ⟨s', mem', l', rest, he, _, hp, hf, hcount⟩ :=
    h.deallocateInternal hxa (h.segment.frees_self hxa)
  refine ⟨{ sys with segment := s', memory := mem', deallocating := sys.deallocating.erase x },
    ⟨l', Function.update g.owned a rest, g.queued, g.inHand⟩,
    by rw [System.perform, he]; rfl, ⟨hf.inv, ?_, h.hand, h.kept, fun y => ?_⟩, .freed hp hf rfl⟩
  · rw [← h.queue]
    exact hf.queue
  · have hs := h.shared y
    have hy := hcount y
    have hc := (List.perm_cons_erase hx).count_eq y
    rw [List.count_singleton] at hy
    rw [List.count_cons] at hc
    dsimp only
    omega

theorem drain_ok {goal : Goal} (h : SystemInv T L sys g) (ha : sys.Allowed T (.drain goal)) :
    StepOk T L sys g (.drain goal) := by
  have hhand := h.hand
  rw [ha.2] at hhand
  exact ⟨_, g, rfl, ⟨h.segment, h.queue, hhand, fun h0 => absurd rfl h0, h.shared⟩,
    .of_queue rfl rfl rfl rfl⟩

theorem SystemInv.drained {goal : Goal} {ret : Nat} (h : SystemInv T L sys g)
    (hcontrol : sys.control = .draining goal ret) :
    SystemInv T L { sys with control := .drained goal ret } g := by
  have hhand := h.hand
  have hkept := h.kept
  rw [hcontrol] at hhand hkept
  exact ⟨h.segment, h.queue, hhand, hkept, h.shared⟩

theorem popDeallocationQueue_nil {s : Segment} (h : s.deallocationQueue = []) :
    Segment.popDeallocationQueue s = (0, s) := by
  rw [Segment.popDeallocationQueue, h]

theorem popDeallocationQueue_cons {s : Segment} {queued : List Nat} {p : Nat}
    (h : s.deallocationQueue = p :: queued) :
    Segment.popDeallocationQueue s = (p, { s with deallocationQueue := queued }) := by
  rw [Segment.popDeallocationQueue, h]

/-- The owner takes a pointer from the queue, to keep it or to free it. -/
theorem SystemInv.pop {goal : Goal} {ret p : Nat} {queued : List Nat} (h : SystemInv T L sys g)
    (hcontrol : sys.control = .draining goal ret) (hq : sys.segment.deallocationQueue = p :: queued) :
    p ≠ 0 ∧ ∃ g', g'.pages = g.pages ∧ g'.owned = g.owned ∧
      (T.page.supportsAnySize = false → ret = 0 → SystemInv T L { sys with
        segment := { sys.segment with deallocationQueue := queued }, control := .draining goal p } g') ∧
      SystemInv T L { sys with
        segment := { sys.segment with deallocationQueue := queued }, control := .freeing goal ret p } g' := by
  have hhand := h.hand
  have hkept := h.kept
  have hqueue := h.queue
  rw [hcontrol] at hhand hkept
  rw [hq] at hqueue
  cases hg : g.queued with
  | nil =>
    rw [hg] at hqueue
    cases hqueue
  | cons y rest =>
    rw [hg, List.map_cons] at hqueue
    obtain ⟨rfl, rfl⟩ := List.cons.inj hqueue
    obtain ⟨a, _, hya⟩ := h.owner (x := y) (by rw [hg, List.count_cons_self]; omega)
    have hy0 := h.ptr_ne_zero hya
    have hshared : ∀ z, (g.pages.flatMap g.owned).count z = sys.live.count z +
        sys.deallocating.count z + rest.count z + (y :: g.inHand).count z := by
      intro z
      have hs := h.shared z
      rw [hg, List.count_cons] at hs
      rw [List.count_cons]
      omega
    refine ⟨hy0, { g with queued := rest, inHand := y :: g.inHand }, rfl, rfl, fun hfixed hret => ?_, ?_⟩
    · have hempty : g.inHand = [] := by
        rw [Control.pointers, if_pos hret] at hhand
        exact List.map_eq_nil_iff.mp hhand.symm
      refine ⟨h.segment_queue _, rfl, ?_, fun _ => hfixed, hshared⟩
      rw [Control.pointers, if_neg hy0, hempty]
      rfl
    · refine ⟨h.segment_queue _, rfl, ?_, hkept, hshared⟩
      rw [List.map_cons, ← hhand]
      rfl

theorem pop_ok (h : SystemInv T L sys g) (ha : sys.Allowed T .pop) : StepOk T L sys g .pop := by
  obtain ⟨goal, ret, hcontrol⟩ := ha
  cases hq : sys.segment.deallocationQueue with
  | nil =>
    refine ⟨{ sys with control := .drained goal ret }, g, ?_, h.drained hcontrol,
      .of_queue (q := sys.segment.deallocationQueue) rfl rfl rfl rfl⟩
    simp only [System.perform, hcontrol, popDeallocationQueue_nil hq, if_true]
  | cons p queued =>
    obtain ⟨hp, g', hpages, howned, hkeep, hfree⟩ := h.pop hcontrol hq
    by_cases hret : goal ≠ .destroy ∧ T.page.supportsAnySize = false ∧ ret = 0
    · refine ⟨_, g', ?_, hkeep hret.2.1 hret.2.2, .of_queue rfl rfl hpages howned⟩
      simp only [System.perform, hcontrol, popDeallocationQueue_cons hq, if_neg hp, if_pos hret]
    · refine ⟨_, g', ?_, hfree, .of_queue rfl rfl hpages howned⟩
      simp only [System.perform, hcontrol, popDeallocationQueue_cons hq, if_neg hp, if_neg hret]

/-- The owner frees the pointer it has taken from the queue. -/
theorem SystemInv.deallocatePopped {goal : Goal} {ret pointer : Nat} (h : SystemInv T L sys g)
    (hcontrol : sys.control = .freeing goal ret pointer) :
    ∃ s' mem' a y rest g',
      Segment.deallocateInternal T pointer sys.segment sys.memory = some (s', mem') ∧
      (g.owned a).Perm (y :: rest) ∧ g'.owned = Function.update g.owned a rest ∧
      Freed T L sys.segment sys.memory g.pages g.owned a rest s' mem' g'.pages ∧
      SystemInv T L { sys with segment := s', memory := mem', control := .draining goal ret } g' := by
  have hhand := h.hand
  have hkept := h.kept
  rw [hcontrol] at hhand hkept
  cases hq : g.inHand with
  | nil =>
    rw [hq] at hhand
    cases hhand
  | cons y inHand =>
    rw [hq, List.map_cons, Control.pointers] at hhand
    obtain ⟨rfl, hrest⟩ := List.cons.inj hhand
    obtain ⟨a, _, hya⟩ := h.owner (x := y) (by rw [hq, List.count_cons_self]; omega)
    obtain ⟨s', mem', l', rest, he, _, hp, hf, hcount⟩ :=
      h.deallocateInternal hya (h.segment.frees_self hya)
    refine ⟨s', mem', a, y, rest, ⟨l', Function.update g.owned a rest, g.queued, inHand⟩, he, hp, rfl, hf,
      ⟨hf.inv, ?_, hrest, hkept, fun z => ?_⟩⟩
    · rw [← h.queue]
      exact hf.queue
    · have hs := h.shared z
      have hz := hcount z
      rw [hq, List.count_cons] at hs
      rw [List.count_singleton] at hz
      dsimp only
      omega

theorem deallocatePopped_ok (h : SystemInv T L sys g) (ha : sys.Allowed T .deallocatePopped) :
    StepOk T L sys g .deallocatePopped := by
  obtain ⟨goal, ret, pointer, hcontrol⟩ := ha
  obtain ⟨s', mem', a, y, rest, g', he, hp, howned, hf, hinv⟩ := h.deallocatePopped hcontrol
  refine ⟨_, g', ?_, hinv, .freed hp hf howned⟩
  simp only [System.perform, hcontrol, he, Option.map_some]

theorem SystemInv.allocateInternal {size : Nat} {arena : ArenaAnswers} (h : SystemInv T L sys g)
    (hhand : g.inHand = []) (ha : sys.ArenaAnswersFor T size arena) :
    ((T.page.supportsAnySize = true ∧ size = 0) ∧
        Segment.allocateInternal T arena size sys.segment sys.memory = none) ∨
      ∃ r g', Segment.allocateInternal T arena size sys.segment sys.memory = some r ∧
        SystemInv T L (sys.afterAllocate T L size r) g' ∧
        AllocateOutcome T L arena size sys.segment sys.memory g.pages g.owned r.1 r.2.1 r.2.2 g'.pages
          g'.owned := by
  have harena : T.concurrency ≠ .threadLocal → ArenaPromise T sys.segment g.pages arena size := by
    intro hc
    obtain ⟨l, hl, hp⟩ := ha hc
    rwa [h.eq_of_lists hl] at hp
  refine (allocateInternal_spec h.segment harena).imp_right ?_
  rintro ⟨ret, s', mem', l', owned', he, ho⟩
  obtain ⟨hinv, hqueue, hconfig, hcount⟩ := ho.shared h.segment
  refine ⟨_, ⟨l', owned', g.queued, []⟩, he, ⟨hinv, hqueue.trans h.queue, rfl,
    fun h0 => absurd rfl h0, fun y => ?_⟩, ho⟩
  have hs := h.shared y
  have hc := hcount y
  have hgrant : ((sys.afterAllocate T L size (ret, s', mem')).live).count y =
      (System.grant T L sys.segment.sizeClass size ret []).count y + sys.live.count y := by
    have hclass : s'.sizeClass = sys.segment.sizeClass := by rw [hconfig]
    simp only [System.afterAllocate, System.grant, hclass]
    split
    · simp
    · simp [List.count_cons, Nat.add_comm]
  rw [hhand, List.count_nil] at hs
  rw [hgrant, List.count_nil]
  change (l'.flatMap owned').count y = _ + _ + sys.deallocating.count y + g.queued.count y + 0
  omega

theorem allocate_ok {size : Nat} {arena : ArenaAnswers} (h : SystemInv T L sys g)
    (ha : sys.Allowed T (.allocate size arena)) :
    StepOk T L sys g (.allocate size arena) ∨ sys.perform T L (.allocate size arena) = none := by
  obtain ⟨_, hcontrol, harena⟩ := ha
  have hhand := h.hand
  rw [hcontrol] at hhand
  rcases h.allocateInternal (List.map_eq_nil_iff.mp hhand.symm) harena with
    ⟨_, he⟩ | ⟨r, g', he, hinv, ho⟩
  · exact .inr (by rw [System.perform, he]; rfl)
  · exact .inl ⟨_, g', by rw [System.perform, he]; rfl, hinv, .allocated (.inl rfl) ho⟩

theorem SystemInv.grantKept {size ret : Nat} (h : SystemInv T L sys g)
    (hcontrol : sys.control = .drained (.allocate size) ret) (hret : ret ≠ 0) :
    ∃ g', SystemInv T L (sys.afterAllocate T L size (ret, sys.segment, sys.memory)) g' ∧
      g'.pages = g.pages ∧ g'.owned = g.owned := by
  have hhand := h.hand
  have hkept := h.kept
  rw [hcontrol] at hhand hkept
  rw [Control.pointers, if_neg hret] at hhand
  obtain ⟨y, hy⟩ : ∃ y, g.inHand = [y] := by
    rw [← List.length_eq_one_iff, ← List.length_map Allocation.ptr, ← hhand]
    rfl
  rw [hy] at hhand
  obtain rfl : ret = y.ptr := (List.cons.inj hhand).1
  obtain ⟨a, hal, hya⟩ := h.owner (x := y) (by rw [hy, List.count_cons_self]; omega)
  obtain ⟨hgranted, hsize⟩ := L.fixed (hkept hret)
  have heq : (⟨y.ptr, L.granted sys.segment.sizeClass size⟩ : Allocation) = y := by
    rw [hgranted, ← (h.segment.frame a hal).2.2, ← show y.size = (sys.memory.pages a).sizeClass from
      hsize (h.segment.page a hal) hya]
  refine ⟨{ g with inHand := [] }, ⟨h.segment, h.queue, rfl, fun h0 => absurd rfl h0, fun z => ?_⟩, rfl, rfl⟩
  have hs := h.shared z
  rw [hy, List.count_singleton] at hs
  simp only [System.afterAllocate, System.grant, if_neg hret, heq, List.count_cons, List.count_nil]
  omega

theorem finish_ok {arena : ArenaAnswers} (h : SystemInv T L sys g) (ha : sys.Allowed T (.finish arena))
    (hd : ∀ ret, sys.control ≠ .drained .destroy ret) :
    StepOk T L sys g (.finish arena) ∨ sys.perform T L (.finish arena) = none := by
  obtain ⟨goal, ret, hcontrol, harena⟩ := ha
  cases goal with
  | destroy => exact absurd hcontrol (hd ret)
  | allocate size =>
    by_cases hret : ret = 0
    · have hhand := h.hand
      rw [hcontrol, Control.pointers, if_pos hret] at hhand
      rcases h.allocateInternal (List.map_eq_nil_iff.mp hhand.symm) (harena size rfl) with
        ⟨_, he⟩ | ⟨r, g', he, hinv, ho⟩
      · exact .inr (by simp [System.perform, hcontrol, hret, he])
      · exact .inl ⟨_, g', by simp [System.perform, hcontrol, hret, he], hinv,
          .allocated (.inr ⟨rfl, hret ▸ hcontrol⟩) ho⟩
    · obtain ⟨g', hinv, hpages, howned⟩ := h.grantKept hcontrol hret
      exact .inl ⟨_, g', by simp [System.perform, hcontrol, hret], hinv,
        .quiet hpages howned rfl rfl rfl rfl rfl⟩

/-- The steps before the end of the segment, without deferred recycling. -/
def Routine (sys : System) : Action → Prop
  | .destroy => False
  | .recycleFreeLogicalPages => False
  | .finish _ => ∀ ret, sys.control ≠ .drained .destroy ret
  | _ => True

/-- Every allowed step keeps the invariant, and only a division by zero can stop it. -/
theorem perform_ok (h : SystemInv T L sys g) (ha : sys.Allowed T action) (hr : Routine sys action) :
    StepOk T L sys g action ∨ sys.perform T L action = none := by
  cases action with
  | store address value => exact .inl (store_ok h ha)
  | callDeallocate x => exact .inl (callDeallocate_ok h ha)
  | push x => exact .inl (push_ok h ha)
  | deallocateInternal x => exact .inl (deallocateInternal_ok h ha)
  | allocate size arena => exact allocate_ok h ha
  | drain goal => exact .inl (drain_ok h ha)
  | pop => exact .inl (pop_ok h ha)
  | deallocatePopped => exact .inl (deallocatePopped_ok h ha)
  | finish arena => exact finish_ok h ha hr
  | destroy => cases hr
  | recycleFreeLogicalPages => cases hr

theorem create_inv {buffer : Nat} {queueMemory : Bool} {params : SegmentCreationParameters}
    {s : Segment} {mem mem' : Memory} (hword : params.logicalPageSize < 2^64)
    (hb : FreshBuffer T { logicalPageSize := params.logicalPageSize } [] buffer params.logicalPageCount)
    (hp : T.bufferAlignedToLogicalPageSize = true → ∃ k ≤ 64, params.logicalPageSize = 2^k)
    (h : Segment.create T buffer queueMemory params {} mem = some (true, s, mem')) :
    SystemInv T L ⟨s, mem', [], [], .idle⟩
      ⟨newPages params.logicalPageSize buffer params.logicalPageCount, fun _ => [], [], []⟩ := by
  have hc := create_spec L hword hb hp h
  refine ⟨hc.inv, hc.queue, rfl, fun h0 => absurd rfl h0, fun x => ?_⟩
  rw [List.flatMap_eq_nil_iff.mpr fun _ _ => rfl]
  rfl

/-- The step relation of the proofs: what is known of a step that was carried out. -/
theorem step_ok (h : SystemInv T L sys g) (ha : sys.Allowed T action) (hr : Routine sys action)
    (hp : sys.perform T L action = some sys') :
    ∃ g', SystemInv T L sys' g' ∧ StepEffect T L sys g action sys' g' := by
  rcases perform_ok h ha hr with ⟨sys₁, g', he, hinv, heffect⟩ | he
  · rw [hp] at he
    cases he
    exact ⟨g', hinv, heffect⟩
  · rw [hp] at he
    cases he

theorem Reachable.inv {condition : System → Action → Prop}
    (hroutine : ∀ sys action, condition sys action → Routine sys action)
    (h : Reachable T L condition sys) : ∃ g, SystemInv T L sys g := by
  induction h with
  | create hword hb hp hlog h => exact ⟨_, create_inv hword hb hp h⟩
  | step h ha hc hp ih =>
    obtain ⟨g, hg⟩ := ih
    obtain ⟨g', hg', _⟩ := step_ok hg ha (hroutine _ _ hc) hp
    exact ⟨g', hg'⟩

end

theorem Reachable.mono {T : SegmentType} {L : PageLaws T.page} {sys : System}
    {condition condition' : System → Action → Prop}
    (hmono : ∀ sys action, Reachable T L condition sys → condition sys action → condition' sys action)
    (h : Reachable T L condition sys) : Reachable T L condition' sys := by
  induction h with
  | create hword hb hp hlog h => exact .create hword hb hp hlog h
  | step h ha hc hp ih => exact .step ih ha (hmono _ _ h hc) hp

def twoPages : SegmentCreationParameters :=
  { logicalPageSize := 4096, logicalPageCount := 2, sizeClass := 64 }

def refusingArena : ArenaAnswers := ⟨fun _ => 0, fun _ => 0⟩

/-- Whatever the step asks of the arena is refused. -/
def Action.Refused : Action → Prop
  | .allocate _ arena => arena = refusingArena
  | .finish arena => arena = refusingArena
  | _ => True

/-- What the threads may do before the end of the segment, as a test. -/
def System.admits (T : SegmentType) (sys : System) : Action → Bool
  | .callDeallocate x => decide (x ∈ sys.live ∧ sys.control = .idle)
  | .push x => decide (T.concurrency = .threadLocal ∧ x ∈ sys.deallocating ∧ sys.control = .idle)
  | .deallocateInternal x =>
    decide (T.concurrency ≠ .threadLocal ∧ x ∈ sys.deallocating ∧ sys.control = .idle)
  | .allocate _ _ => decide (T.concurrency ≠ .threadLocal ∧ sys.control = .idle)
  | .drain _ => decide (T.concurrency = .threadLocal ∧ sys.control = .idle)
  | .pop => match sys.control with
    | .draining _ _ => true
    | _ => false
  | .deallocatePopped => match sys.control with
    | .freeing _ _ _ => true
    | _ => false
  | .finish _ => match sys.control with
    | .drained (.allocate _) _ => decide (T.concurrency = .threadLocal)
    | _ => false
  | _ => false

def System.steps (T : SegmentType) (L : PageLaws T.page) (test : System → Action → Bool) :
    List Action → System → Option System
  | [], sys => some sys
  | action :: rest, sys =>
    if sys.admits T action && test sys action then (sys.perform T L action).bind (steps T L test rest)
    else none

/-- The steps of such runs. -/
structure TestedStep (test : System → Action → Bool) (sys : System) (action : Action) : Prop where
  routine : Routine sys action
  refused : action.Refused
  passes : test sys action = true

theorem SystemInv.admits {T : SegmentType} {L : PageLaws T.page} {sys : System} {g : Ghost} {action : Action}
    (h : SystemInv T L sys g) (hrefused : action.Refused) (ha : sys.admits T action = true) :
    sys.Allowed T action ∧ Routine sys action := by
  have hidle : ∀ {c : Control}, c = .idle → c ≠ .destroyed := by
    rintro _ rfl
    decide
  cases action with
  | callDeallocate x =>
    obtain ⟨hx, hc⟩ := of_decide_eq_true ha
    exact ⟨⟨hx, hidle hc⟩, trivial⟩
  | push x =>
    obtain ⟨hlocal, hx, hc⟩ := of_decide_eq_true ha
    exact ⟨⟨hlocal, hx, hidle hc⟩, trivial⟩
  | deallocateInternal x =>
    obtain ⟨hlocal, hx, hc⟩ := of_decide_eq_true ha
    exact ⟨⟨hlocal, hx, hc⟩, trivial⟩
  | allocate size arena =>
    obtain ⟨hlocal, hc⟩ := of_decide_eq_true ha
    obtain rfl : arena = refusingArena := hrefused
    exact ⟨⟨hlocal, hc, fun _ => ⟨g.pages, h.lists, fun _ _ _ h0 => absurd rfl h0, fun _ _ _ _ _ => rfl⟩⟩, trivial⟩
  | drain goal =>
    obtain ⟨hlocal, hc⟩ := of_decide_eq_true ha
    exact ⟨⟨hlocal, hc⟩, trivial⟩
  | pop =>
    rw [System.admits] at ha
    split at ha
    · exact ⟨⟨_, _, ‹_›⟩, trivial⟩
    · cases ha
  | deallocatePopped =>
    rw [System.admits] at ha
    split at ha
    · exact ⟨⟨_, _, _, ‹_›⟩, trivial⟩
    · cases ha
  | finish arena =>
    rw [System.admits] at ha
    split at ha
    · rename_i size ret hdrained
      refine ⟨⟨_, _, hdrained, fun _ _ hne => absurd (of_decide_eq_true ha) hne⟩, fun ret' hd => ?_⟩
      rw [hdrained] at hd
      cases hd
    · cases ha
  | _ => cases ha

theorem Reachable.steps {T : SegmentType} {L : PageLaws T.page} {test : System → Action → Bool}
    {sys sys' : System} {actions : List Action} (hrefused : ∀ action ∈ actions, action.Refused)
    (h : Reachable T L (TestedStep test) sys) (hp : System.steps T L test actions sys = some sys') :
    Reachable T L (TestedStep test) sys' := by
  induction actions generalizing sys with
  | nil =>
    cases hp
    exact h
  | cons action rest ih =>
    rw [System.steps] at hp
    split at hp
    · rename_i htest
      obtain ⟨hadmits, hpasses⟩ := Bool.and_eq_true_iff.mp htest
      obtain ⟨sys₁, h₁, h₂⟩ := Option.bind_eq_some_iff.mp hp
      obtain ⟨g, hg⟩ := h.inv fun _ _ hc => hc.routine
      have href := hrefused action List.mem_cons_self
      obtain ⟨hallowed, hroutine⟩ := hg.admits href hadmits
      exact ih (fun a ha => hrefused a (List.mem_cons_of_mem _ ha))
        (h.step hallowed ⟨hroutine, href, hpasses⟩ h₁) h₂
    · cases hp

/-- A segment made at 8192 in memory full of zeros, after the given steps. -/
def afterSteps (T : SegmentType) (L : PageLaws T.page) (params : SegmentCreationParameters)
    (test : System → Action → Bool) (actions : List Action) : Option System :=
  (Segment.create T 8192 true params {} ⟨fun _ => 0, fun _ => {}, [], []⟩).bind fun (ok, s, mem) =>
    if ok then System.steps T L test actions ⟨s, mem, [], [], .idle⟩ else none

theorem reachable_afterSteps {T : SegmentType} {L : PageLaws T.page} {params : SegmentCreationParameters}
    {test : System → Action → Bool} {actions : List Action} {sys : System}
    (hunaligned : T.bufferAlignedToLogicalPageSize = false) (hsize : params.logicalPageSize < 2^40)
    (hcount : params.logicalPageCount < 2^20) (hrefused : ∀ action ∈ actions, action.Refused)
    (h : afterSteps T L params test actions = some sys) : Reachable T L (TestedStep test) sys := by
  obtain ⟨⟨ok, s, mem⟩, hc, hsteps⟩ := Option.bind_eq_some_iff.mp h
  dsimp only at hsteps
  split at hsteps
  · rename_i hok
    subst hok
    have hend : params.logicalPageCount * params.logicalPageSize < 2^20 * 2^40 :=
      Nat.mul_lt_mul_of_lt_of_lt hcount hsize
    refine Reachable.steps hrefused (.create (by omega) ⟨by decide, ?_, by simp, ?_⟩ ?_ ⟨rfl, rfl⟩ hc) hsteps
    · dsimp only
      omega
    · rw [hunaligned]
      exact fun h => absurd h (by decide)
    · rw [hunaligned]
      exact fun h => absurd h (by decide)
  · cases hsteps

/-- A run is carried out once, and what is known of the state it ends in is read off there. -/
theorem exists_afterSteps {T : SegmentType} {L : PageLaws T.page} {params : SegmentCreationParameters}
    {test : System → Action → Bool} {actions : List Action} {α : Type} {f : System → α} {v : α}
    (hunaligned : T.bufferAlignedToLogicalPageSize = false) (hsize : params.logicalPageSize < 2^40)
    (hcount : params.logicalPageCount < 2^20) (hrefused : ∀ action ∈ actions, action.Refused)
    (h : (afterSteps T L params test actions).map f = some v) :
    ∃ sys, afterSteps T L params test actions = some sys ∧ Reachable T L (TestedStep test) sys ∧ f sys = v := by
  obtain ⟨sys, hsys, hv⟩ := Option.map_eq_some_iff.mp h
  exact ⟨sys, hsys, reachable_afterSteps hunaligned hsize hcount hrefused hsys, hv⟩

/-- A call from beginning to end, by the only thread of a segment without a queue. -/
inductive Call where
  | allocate (size : Nat)
  | deallocate (x : Allocation)

def Call.actions : Call → List Action
  | .allocate size => [.allocate size refusingArena]
  | .deallocate x => [.callDeallocate x, .deallocateInternal x]

theorem refused_of_mem_calls {cs : List Call} : ∀ action ∈ cs.flatMap Call.actions, action.Refused := by
  intro action ha
  obtain ⟨call, _, hmem⟩ := List.mem_flatMap.mp ha
  cases call with
  | allocate size =>
    obtain rfl := List.mem_singleton.mp hmem
    rfl
  | deallocate x =>
    obtain rfl | hmem := List.mem_cons.mp hmem
    · trivial
    · obtain rfl := List.mem_singleton.mp hmem
      trivial

/-- A request of the owner that finds its queue empty. -/
def request (size : Nat) : List Action := [.drain (.allocate size), .pop, .finish refusingArena]

def giveBack (x : Allocation) : List Action := [.callDeallocate x, .push x]

def twoChunks : SegmentCreationParameters :=
  { logicalPageSize := 4096, logicalPageCount := 2, sizeClass := 4032, pageRecyclingThreshold := 1 }

end Metamalloc.Segments
