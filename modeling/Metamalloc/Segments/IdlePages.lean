import Metamalloc.Pages.ChunkPartition
import Metamalloc.Segments.AdmittedSizes
import Metamalloc.Segments.PageRecycling

/-! How many pages without an allocation a segment keeps. Only what recycling is meant to keep: the threshold, or
what there was before. -/
namespace Metamalloc.Segments
open Library.Word64 Library.ByteMemory Library.LinkedList Pages

def idlePages (mem : Memory) (l : List Nat) : Nat := l.countP fun a => (mem.pages a).usedSize = 0

/-- What is asked of an arena and of its clients, where the segment can grow. -/
structure GrowsByNeed (T : SegmentType) (s : Segment) (arena : ArenaAnswers) (size : Nat) : Prop where
  aligned : GranularityAligned arena
  anySize : T.page.supportsAnySize = true → FitsFreshPage s size

section
variable {T : SegmentType} {L : PageLaws T.page} {kind : PageKind} {concurrency : ConcurrencyPolicy}
  {recycling : PageRecyclingPolicy} {bufferAligned : Bool} {s s' : Segment} {mem mem' : Memory}
  {l l' : List Nat} {owned owned' : Nat → List Allocation} {arena : ArenaAnswers} {a b n size ret : Nat}
  {x : Allocation} {rest : List Allocation}

theorem SegmentInv.idlePages_eq (h : SegmentInv T L s mem l owned) :
    idlePages mem l = l.countP fun a => (owned a).isEmpty := by
  refine List.countP_congr fun a ha => ?_
  rw [decide_eq_true_eq, h.used_eq_zero ha, List.isEmpty_iff]

theorem allocate_of_empty {p : Page} (h : LogicalPage.Inv p []) (hclass : 0 < LogicalPage.chunkCount p.header)
    (size : Nat) : (LogicalPage.allocate size p).1 ≠ 0 := by
  rw [ne_eq, h.allocate_eq_zero_iff]
  exact Nat.ne_of_lt hclass

/-- A growth that is granted ends with an allocation. -/
theorem growAndAllocate_granted
    (h : SegmentInv ⟨concurrency, kind.pageType, recycling, bufferAligned⟩ kind.laws s mem l owned)
    (hpromise : ArenaPromise ⟨concurrency, kind.pageType, recycling, bufferAligned⟩ s l arena size)
    (hneed : GrowsByNeed ⟨concurrency, kind.pageType, recycling, bufferAligned⟩ s arena size)
    (hlt : size + 32 < 2^64)
    (hb : Granted ⟨concurrency, kind.pageType, recycling, bufferAligned⟩ arena size s n b) :
    ∃ ret s' mem', Segment.growAndAllocate ⟨concurrency, kind.pageType, recycling, bufferAligned⟩ arena size s mem =
      some (ret, s', mem') ∧ ret ≠ 0 := by
  have hbound : b % 4096 = 0 := aligned_of_granted (fun _ => hneed.aligned) hb
  have hgranted := hb
  obtain ⟨_, m, hq, hn, rfl, hb0⟩ := hb
  have hbuffer : Segment.requestBuffer arena s n m = arena.request (mul64 s.logicalPageSize n) := by
    rw [Segment.requestBuffer, if_neg fun hc => hb0 hc.1]
  have hfresh := hpromise.fresh n m hq hb0
  generalize arena.request (mul64 s.logicalPageSize n) = b at *
  rcases grow_spec h hn hfresh with ⟨hfail, -⟩ | ⟨s', mem', hgrow, hg⟩
  · exact (not_failed h.geometry kind.laws hbound hgranted hfresh hfail).elim
  have hmem : b ∈ l ++ newPages s.logicalPageSize b n := by
    obtain ⟨k, rfl⟩ : ∃ k, n = k + 1 := ⟨n - 1, by omega⟩
    rw [newPages_succ]
    simp
  suffices hserves : ∃ ret p, kind.pageType.allocate size (mem'.page b) = some (ret, p) ∧ ret ≠ 0 by
    obtain ⟨ret, p, he, hret⟩ := hserves
    rw [← hbuffer] at hgrow hb0 he
    exact ⟨ret, _, _, growAndAllocate_eq hq hb0 hgrow hb0 he, hret⟩
  cases kind with
  | logicalPage =>
    have hpos := Nat.mul_pos hn h.pageSize_pos
    have hnew : b ∉ l := fun hm => by
      have := hfresh.apart b hm
      have := h.pageSize_pos
      omega
    have hinv : LogicalPage.Inv (mem'.page b) [] := h.outside b hnew ▸ hg.inv.page b hmem
    obtain ⟨-, hpageSize, hclass⟩ := hg.inv.frame b hmem
    obtain ⟨buffer, m', hcreatable⟩ := hg.inv.geometry.creatable
    obtain ⟨hclass0, hclassLe⟩ := LogicalPage.laws.create_class hcreatable rfl
    refine ⟨_, _, rfl, allocate_of_empty hinv ?_ size⟩
    rw [LogicalPage.chunkCount, show (mem'.page b).header = mem'.pages b from rfl, hpageSize, hclass]
    exact Nat.div_pos hclassLe hclass0
  | logicalPageAnySize policy =>
    have hobject : 64 < s.logicalPageSize := h.geometry.object_lt
    have hend : b + s.logicalPageSize < 2^64 :=
      Nat.lt_of_le_of_lt (Nat.add_le_add_left (Nat.le_mul_of_pos_left _ hn) b) hfresh.inside
    have hempty := EmptyPage.grow h.geometry.multiple hobject hbound hend hb0 hgrow
    have hmultiple := h.geometry.multiple
    obtain ⟨ret, q, he, hiff⟩ := hempty.allocate hbound hend (by omega) hlt
    exact ⟨ret, q, he, hiff.mpr (hneed.anySize rfl)⟩

/-- A call of `allocate_internal` leaves no page behind that nobody uses. -/
theorem AllocateOutcome.idle_le
    (ho : AllocateOutcome ⟨concurrency, kind.pageType, recycling, bufferAligned⟩ kind.laws arena size s mem l owned
      ret s' mem' l' owned')
    (h : SegmentInv ⟨concurrency, kind.pageType, recycling, bufferAligned⟩ kind.laws s mem l owned)
    (hcoefficient : s.growCoefficient.positive = false)
    (hpromise : concurrency ≠ .threadLocal →
      ArenaPromise ⟨concurrency, kind.pageType, recycling, bufferAligned⟩ s l arena size)
    (hneed : concurrency ≠ .threadLocal →
      GrowsByNeed ⟨concurrency, kind.pageType, recycling, bufferAligned⟩ s arena size)
    (he : Segment.allocateInternal ⟨concurrency, kind.pageType, recycling, bufferAligned⟩ arena size s mem =
      some (ret, s', mem')) :
    (l'.countP fun a => (owned' a).isEmpty) ≤ l.countP fun a => (owned a).isEmpty := by
  -- One more allocation on a page does not make a page idle.
  have hserved : ∀ (l : List Nat) (b : Nat) (x : Allocation),
      (l.countP fun a => (Function.update owned b (x :: owned b) a).isEmpty) ≤
        l.countP fun a => (owned a).isEmpty := by
    refine fun l b x => List.countP_mono_left fun a _ ha => ?_
    by_cases hab : a = b
    · subst hab
      rw [Function.update_self] at ha
      cases ha
    · rwa [Function.update_of_ne hab] at ha
  cases ho with
  | refused => exact le_rfl
  | served _ hs => exact hserved l _ _
  | failed hb hfresh hfail =>
    exact (not_failed h.geometry kind.laws (aligned_of_granted (fun hc => (hneed hc).aligned) hb) hb hfresh hfail).elim
  | @grown n b s' mem' hb hg =>
    -- The pages it adds are there for the request, which the first of them serves.
    exfalso
    have hsize : ¬ s.maxObjectSize < size := by
      intro hmax
      rw [Segment.allocateInternal, if_pos hmax] at he
      cases he
      have hcreated := congrArg List.length hg.created
      obtain ⟨_, _, _, hn, _⟩ := hb
      simp only [List.length_append, List.length_reverse, newPages, List.length_map, List.length_range] at hcreated
      omega
    have hlt : size + 32 < 2^64 := h.usable.size_lt (Nat.le_of_not_lt hsize)
    rw [Segment.allocateInternal, if_neg hsize] at he
    rcases searchListed_spec h hlt with ⟨-, hsearch⟩ | ⟨a, ret, mem'', -, hsearch, hserved⟩
    · rw [hsearch] at he
      dsimp only at he
      rw [if_neg hb.1] at he
      obtain ⟨ret, s'', mem'', hgrow, hret⟩ := growAndAllocate_granted h (hpromise hb.1) (hneed hb.1) hlt hb
      rw [hgrow] at he
      cases he
      exact hret rfl
    · rw [hsearch] at he
      cases he
      exact hserved.ne_zero rfl
  | grownServed hb hg hs =>
    obtain ⟨-, m, hq, -⟩ := hb
    have hsize : size ≤ s.maxObjectSize := by
      by_contra hmax
      rw [Segment.allocateInternal, if_pos (Nat.lt_of_not_le hmax)] at he
      cases he
      exact hs.ne_zero rfl
    have hroom : size ≤ s.logicalPageSize - kind.pageType.objectSize := by
      rw [kind.laws.objectSize_eq]
      exact Nat.le_sub_of_add_le ((Nat.add_le_add_right hsize _).trans h.geometry.maxObject.le)
    obtain ⟨rfl, -⟩ := calculateQuantities_eq_one hcoefficient (fun _ => le_max_of_le_right hroom) hq
    rw [newPages_succ, List.countP_append, List.countP_cons, Function.update_self]
    exact hserved l _ _

/-- A deallocation leaves an idle page behind only as far as the threshold allows. -/
theorem Freed.idle_le (hf : Freed T L s mem l owned a rest s' mem' l') (h : SegmentInv T L s mem l owned)
    (hp : (owned a).Perm (x :: rest)) (himmediate : T.recycling = .immediate) :
    (l'.countP fun b => (Function.update owned a rest b).isEmpty) ≤
      max (l.countP fun b => (owned b).isEmpty) s.pageRecyclingThreshold := by
  have hne : (owned a).isEmpty = false := by
    rw [List.isEmpty_eq_false_iff]
    intro hnil
    rw [hnil] at hp
    cases hp.nil_eq
  rcases hf.outcome with ⟨-, rfl, -⟩ | ⟨hkept, rfl, -⟩
  · refine le_max_of_le_left ((le_of_eq (List.countP_congr fun b hb => ?_)).trans
      List.erase_sublist.countP_le)
    rw [Function.update_of_ne (h.listed.ring.nodup_list.mem_erase_iff.mp hb).1]
  · by_cases hrest : rest = []
    · refine le_max_of_le_right (List.countP_le_length.trans ?_)
      rw [← h.listed.count]
      exact Nat.le_of_not_lt fun hlt => hkept ⟨hrest, himmediate, hlt⟩
    · refine le_max_of_le_left (List.countP_mono_left fun b _ hb => ?_)
      by_cases hab : b = a
      · subst hab
        rw [Function.update_self, List.isEmpty_iff] at hb
        exact absurd hb hrest
      · rwa [Function.update_of_ne hab] at hb

end

def Ghost.idle (g : Ghost) : Nat := g.pages.countP fun a => (g.owned a).isEmpty

/-- The steps before the end of a segment, with requests that a page in addition serves. -/
def Retains (T : SegmentType) (sys : System) (action : Action) : Prop :=
  Routine sys action ∧ ∀ size arena, (action = .allocate size arena ∨
    action = .finish arena ∧ ∃ ret, sys.control = .drained (.allocate size) ret) →
    T.concurrency ≠ .threadLocal → GrowsByNeed T sys.segment arena size

section
variable {kind : PageKind} {concurrency : ConcurrencyPolicy} {bufferAligned : Bool} {sys sys' : System}
  {g : Ghost} {action : Action}

structure KeepsIdle (T : SegmentType) (L : PageLaws T.page) (sys : System) (g : Ghost) (sys' : System)
    (g' : Ghost) : Prop where
  inv : SystemInv T L sys' g'
  idle : g'.idle ≤ max g.idle sys.segment.pageRecyclingThreshold
  config : sys'.segment.toSegmentConfig = sys.segment.toSegmentConfig

theorem SystemInv.allocateInternal_idle {size : Nat} {arena : ArenaAnswers} {r : Nat × Segment × Memory}
    (h : SystemInv ⟨concurrency, kind.pageType, .immediate, bufferAligned⟩ kind.laws sys g) (hhand : g.inHand = [])
    (hcoefficient : sys.segment.growCoefficient.positive = false)
    (ha : sys.ArenaAnswersFor ⟨concurrency, kind.pageType, .immediate, bufferAligned⟩ size arena)
    (hneed : concurrency ≠ .threadLocal →
      GrowsByNeed ⟨concurrency, kind.pageType, .immediate, bufferAligned⟩ sys.segment arena size)
    (he : Segment.allocateInternal ⟨concurrency, kind.pageType, .immediate, bufferAligned⟩ arena size sys.segment
      sys.memory = some r) :
    ∃ g', KeepsIdle ⟨concurrency, kind.pageType, .immediate, bufferAligned⟩ kind.laws sys g
      (sys.afterAllocate ⟨concurrency, kind.pageType, .immediate, bufferAligned⟩ kind.laws size r) g' := by
  rcases h.allocateInternal hhand ha with ⟨-, hnone⟩ | ⟨r', g', he', hinv, ho⟩
  · rw [he] at hnone
    cases hnone
  · rw [he] at he'
    cases he'
    have hpromise : concurrency ≠ .threadLocal →
        ArenaPromise ⟨concurrency, kind.pageType, .immediate, bufferAligned⟩ sys.segment g.pages arena size := by
      intro hdirect
      obtain ⟨l, hl, hpromise⟩ := ha hdirect
      rwa [h.eq_of_lists hl] at hpromise
    exact ⟨g', hinv, le_max_of_le_left (ho.idle_le h.segment hcoefficient hpromise hneed he),
      (ho.shared h.segment).2.2.1⟩

theorem SystemInv.step_idle
    (h : SystemInv ⟨concurrency, kind.pageType, .immediate, bufferAligned⟩ kind.laws sys g)
    (hcoefficient : sys.segment.growCoefficient.positive = false)
    (ha : sys.Allowed ⟨concurrency, kind.pageType, .immediate, bufferAligned⟩ action)
    (hr : Retains ⟨concurrency, kind.pageType, .immediate, bufferAligned⟩ sys action)
    (hp : sys.perform ⟨concurrency, kind.pageType, .immediate, bufferAligned⟩ kind.laws action = some sys') :
    ∃ g', KeepsIdle ⟨concurrency, kind.pageType, .immediate, bufferAligned⟩ kind.laws sys g sys' g' := by
  obtain ⟨hroutine, hneed⟩ := hr
  obtain ⟨g', hinv, heffect⟩ := step_ok h ha hroutine hp
  cases heffect with
  | quiet hpages howned _ hconfig =>
    exact ⟨g', hinv, le_max_of_le_left (by rw [Ghost.idle, Ghost.idle, hpages, howned]), hconfig⟩
  | freed hperm hf howned =>
    refine ⟨g', hinv, ?_, hf.config⟩
    rw [Ghost.idle, howned]
    exact hf.idle_le h.segment hperm rfl
  | @allocated arena size ret haction _ =>
    have hhand := h.hand
    rcases haction with rfl | ⟨rfl, hcontrol⟩
    · rw [ha.2.1] at hhand
      obtain ⟨r, he, rfl⟩ := Option.map_eq_some_iff.mp hp
      exact h.allocateInternal_idle (List.map_eq_nil_iff.mp hhand.symm) hcoefficient ha.2.2
        (hneed size arena (.inl rfl)) he
    · obtain ⟨goal, ret, hgoal, harena⟩ := ha
      rw [hcontrol] at hgoal
      cases hgoal
      rw [hcontrol] at hhand
      simp only [System.perform, hcontrol, if_neg (not_not.mpr rfl)] at hp
      obtain ⟨r, he, rfl⟩ := Option.map_eq_some_iff.mp hp
      exact h.allocateInternal_idle (List.map_eq_nil_iff.mp hhand.symm) hcoefficient (harena size rfl)
        (hneed size arena (.inr ⟨rfl, 0, hcontrol⟩)) he

theorem length_le_idle_add {l : List Nat} {owned : Nat → List Allocation} :
    l.length ≤ (l.countP fun a => (owned a).isEmpty) + (l.flatMap owned).length := by
  induction l with
  | nil => exact Nat.zero_le _
  | cons a l ih =>
    rw [List.length_cons, List.countP_cons, List.flatMap_cons, List.length_append]
    cases owned a with
    | nil => simp only [List.isEmpty_nil, if_true]; omega
    | cons x rest => simp only [List.length_cons]; omega

theorem SystemInv.pageCount_le {T : SegmentType} {L : PageLaws T.page} (h : SystemInv T L sys g) :
    sys.segment.logicalPageCount ≤ g.idle + sys.pointersOut.length := by
  rw [h.segment.listed.count, ← h.out_perm.length_eq, List.length_map]
  exact length_le_idle_add

def RunsTo (T : SegmentType) (L : PageLaws T.page) (condition : System → Action → Prop) : System → System → Prop :=
  Relation.ReflTransGen fun sys sys' =>
    ∃ action, sys.Allowed T action ∧ condition sys action ∧ sys.perform T L action = some sys'

end

/-- However long a segment runs, it has no more idle pages than the threshold, or than it had at first; every other
page of it has a pointer out. -/
theorem idle_pages_bounded {kind : PageKind} {concurrency : ConcurrencyPolicy} {bufferAligned : Bool}
    {sys₀ sys : System} {l₀ : List Nat}
    (h₀ : Reachable ⟨concurrency, kind.pageType, .immediate, bufferAligned⟩ kind.laws Routine sys₀)
    (hcoefficient : sys₀.segment.growCoefficient.positive = false) (hl₀ : sys₀.Lists l₀)
    (hrun : RunsTo ⟨concurrency, kind.pageType, .immediate, bufferAligned⟩ kind.laws
      (Retains ⟨concurrency, kind.pageType, .immediate, bufferAligned⟩) sys₀ sys) :
    ∃ l, sys.Lists l ∧
      idlePages sys.memory l ≤ max (idlePages sys₀.memory l₀) sys₀.segment.pageRecyclingThreshold ∧
      sys.segment.logicalPageCount ≤ sys.pointersOut.length +
        max (idlePages sys₀.memory l₀) sys₀.segment.pageRecyclingThreshold := by
  obtain ⟨g₀, hg₀⟩ := h₀.inv fun _ _ hr => hr
  obtain rfl := hg₀.eq_of_lists hl₀
  have hidle₀ : g₀.idle = idlePages sys₀.memory g₀.pages := hg₀.segment.idlePages_eq.symm
  have hall : ∃ g, SystemInv ⟨concurrency, kind.pageType, .immediate, bufferAligned⟩ kind.laws sys g ∧
      g.idle ≤ max g₀.idle sys₀.segment.pageRecyclingThreshold ∧
      sys.segment.toSegmentConfig = sys₀.segment.toSegmentConfig := by
    induction hrun with
    | refl => exact ⟨g₀, hg₀, le_max_left .., rfl⟩
    | tail _ hstep ih =>
      obtain ⟨g, hg, hidle, hconfig⟩ := ih
      obtain ⟨action, ha, hc, hp⟩ := hstep
      obtain ⟨g', hg', hidle', hconfig'⟩ := hg.step_idle (by rw [hconfig]; exact hcoefficient) ha hc hp
      rw [hconfig] at hidle'
      exact ⟨g', hg', hidle'.trans (max_le hidle (le_max_right ..)), hconfig'.trans hconfig⟩
  obtain ⟨g, hg, hidle, -⟩ := hall
  rw [hidle₀] at hidle
  refine ⟨g.pages, hg.lists, hg.segment.idlePages_eq.trans_le hidle, hg.pageCount_le.trans ?_⟩
  omega

/-- An allocation on a segment of two pages. -/
theorem idle_pages_bounded_of_two : ∃ sys₀ sys l₀ l,
    RunsTo ⟨.central, PageKind.logicalPage.pageType, .immediate, false⟩ PageKind.logicalPage.laws
      (Retains ⟨.central, PageKind.logicalPage.pageType, .immediate, false⟩) sys₀ sys ∧
    sys₀.Lists l₀ ∧ sys.Lists l ∧ sys.segment.logicalPageCount ≤ sys.pointersOut.length +
      max (idlePages sys₀.memory l₀) sys₀.segment.pageRecyclingThreshold := by
  have he : (Segment.create ⟨.central, PageKind.logicalPage.pageType, .immediate, false⟩ 8192 true
      twoPages {} ⟨fun _ => 0, fun _ => {}, [], []⟩).map (fun r => (r.1, r.2.1.growCoefficient.positive)) =
        some (true, false) := by decide +kernel
  obtain ⟨⟨ok, s, mem⟩, hc, heq⟩ := Option.map_eq_some_iff.mp he
  simp only [Prod.mk.injEq] at heq
  obtain ⟨rfl, hcoefficient⟩ := heq
  have h₀ : Reachable ⟨.central, PageKind.logicalPage.pageType, .immediate, false⟩ PageKind.logicalPage.laws Routine
      ⟨s, mem, [], [], .idle⟩ :=
    .create (by decide) ⟨by decide, by decide, by simp, by simp⟩ (by simp) ⟨rfl, rfl⟩ hc
  obtain ⟨g₀, hg₀⟩ := h₀.inv fun _ _ hr => hr
  have hallowed : System.Allowed ⟨.central, PageKind.logicalPage.pageType, .immediate, false⟩
      ⟨s, mem, [], [], .idle⟩ (.allocate 64 refusingArena) :=
    ⟨by decide, rfl, fun _ => ⟨g₀.pages, hg₀.lists, fun _ _ _ h0 => absurd rfl h0, fun _ _ _ _ _ => rfl⟩⟩
  have hretains : Retains ⟨.central, PageKind.logicalPage.pageType, .immediate, false⟩ ⟨s, mem, [], [], .idle⟩
      (.allocate 64 refusingArena) := by
    refine ⟨trivial, ?_⟩
    rintro size arena (hallocate | ⟨hfinish, -⟩) -
    · cases hallocate
      exact ⟨fun _ => rfl, fun hany => absurd hany (by decide)⟩
    · cases hfinish
  rcases hg₀.allocateInternal (List.map_eq_nil_iff.mp hg₀.hand.symm) hallowed.2.2 with
    ⟨⟨hany, -⟩, -⟩ | ⟨r, g', he, -⟩
  · cases hany
  have hrun : RunsTo ⟨.central, PageKind.logicalPage.pageType, .immediate, false⟩ PageKind.logicalPage.laws
      (Retains ⟨.central, PageKind.logicalPage.pageType, .immediate, false⟩) ⟨s, mem, [], [], .idle⟩
      (System.afterAllocate ⟨.central, PageKind.logicalPage.pageType, .immediate, false⟩ PageKind.logicalPage.laws
        ⟨s, mem, [], [], .idle⟩ 64 r) :=
    .single ⟨_, hallowed, hretains, congrArg (Option.map _) he⟩
  obtain ⟨l, hl, -, hcount⟩ := idle_pages_bounded h₀ hcoefficient hg₀.lists hrun
  exact ⟨_, _, _, l, hrun, hg₀.lists, hl, hcount⟩

end Metamalloc.Segments
