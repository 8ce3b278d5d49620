import Metamalloc.Segments.PageRecycling

/-! Whole calls of `allocate` and `deallocate` on a segment at rest, and what of the shared
memory they touch. -/
namespace Metamalloc.Segments
open Library.Word64 Library.ByteMemory Library.LinkedList Pages

/-- A segment between two calls of its clients. -/
def atRest (s : Segment) (mem : Memory) (live : List Allocation) : System := ⟨s, mem, live, [], .idle⟩

/-- A call works on the listed pages and on new ones, and lists no others. -/
structure Touches (s : Segment) (mem : Memory) (l new : List Nat) (s' : Segment) (mem' : Memory)
    (l' : List Nat) : Prop where
  config : s'.toSegmentConfig = s.toSegmentConfig
  within : Within mem mem' (region s.logicalPageSize (l ++ new))
  pages : ∀ a ∈ l', a ∈ l ++ new

/-- The pages that have left the list were released. -/
structure Releases (pageSize : Nat) (mem : Memory) (l : List Nat) (mem' : Memory) (l' released : List Nat) :
    Prop where
  log : mem'.released = released.map (fun a => (a, pageSize)) ++ mem.released
  pages : l.Perm (l' ++ released)

/-- A drain has emptied the queue and released the pages it took off the list. -/
structure Drained (s : Segment) (mem : Memory) (l : List Nat) (s' : Segment) (mem' : Memory)
    (l' : List Nat) : Prop extends Touches s mem l [] s' mem' l' where
  queue : s'.deallocationQueue = []
  releases : ∃ released, Releases s.logicalPageSize mem l mem' l' released

section
variable {T : SegmentType} {L : PageLaws T.page} {s s' s'' : Segment} {mem mem' mem'' : Memory}
  {l l' l'' new released released' : List Nat} {live : List Allocation} {sys : System} {g : Ghost} {goal : Goal}
  {x : Allocation} {size ret fuel : Nat} {returnInitialPointer : Bool} {arena : ArenaAnswers}

theorem Touches.refl (s : Segment) (mem : Memory) (l : List Nat) : Touches s mem l [] s mem l :=
  ⟨rfl, .refl _ _, fun _ ha => List.mem_append_left _ ha⟩

theorem Touches.trans (h : Touches s mem l [] s' mem' l') (h' : Touches s' mem' l' [] s'' mem'' l'') :
    Touches s mem l [] s'' mem'' l'' := by
  have hsize : s'.logicalPageSize = s.logicalPageSize := congrArg SegmentConfig.logicalPageSize h.config
  refine ⟨h'.config.trans h.config, h.within.trans ?_, fun a ha => ?_⟩
  · refine h'.within.mono fun c hc => ?_
    rw [hsize, List.append_nil] at hc
    exact region_mono h.pages c hc
  · have ha' := h'.pages a ha
    rw [List.append_nil] at ha'
    exact h.pages a ha'

theorem Releases.refl (pageSize : Nat) (mem : Memory) (l : List Nat) : Releases pageSize mem l mem l [] :=
  ⟨rfl, by rw [List.append_nil]⟩

theorem Releases.trans {pageSize : Nat} (h : Releases pageSize mem l mem' l' released)
    (h' : Releases pageSize mem' l' mem'' l'' released') :
    Releases pageSize mem l mem'' l'' (released' ++ released) := by
  refine ⟨?_, ?_⟩
  · rw [h'.log, h.log, List.map_append, List.append_assoc]
  · rw [← List.append_assoc]
    exact h.pages.trans (h'.pages.append_right released)

theorem Freed.touches {owned : Nat → List Allocation} {a : Nat} {rest : List Allocation}
    (h : Freed T L s mem l owned a rest s' mem' l') : Touches s mem l [] s' mem' l' := by
  refine ⟨h.config, ?_, fun b hb => ?_⟩
  · rw [List.append_nil]
    exact h.within
  · rw [List.append_nil]
    rcases h.outcome with ⟨_, hl, _⟩ | ⟨_, hl, _⟩
    · rw [hl] at hb
      exact List.mem_of_mem_erase hb
    · rwa [hl] at hb

theorem Freed.releases {owned : Nat → List Allocation} {a : Nat} {rest : List Allocation} (ha : a ∈ l)
    (h : Freed T L s mem l owned a rest s' mem' l') :
    ∃ released, Releases s.logicalPageSize mem l mem' l' released := by
  rcases h.outcome with ⟨_, hl, hlog⟩ | ⟨_, hl, hlog⟩
  · refine ⟨[a], hlog, ?_⟩
    rw [hl]
    exact (List.perm_cons_erase ha).trans (List.perm_append_singleton a _).symm
  · rw [hl]
    exact ⟨[], hlog, by rw [List.append_nil]⟩

/-- What a call of `allocate_internal` touches, and where new pages come from. -/
theorem AllocateOutcome.touches {owned owned' : Nat → List Allocation}
    (harena : ∀ n b, Granted T arena size s n b → b % 4096 = 0) (h : SegmentInv T L s mem l owned)
    (ho : AllocateOutcome T L arena size s mem l owned ret s' mem' l' owned') :
    ∃ new, Touches s mem l new s' mem' l' ∧
      (new = [] ∨ ∃ n b, Granted T arena size s n b ∧ new = newPages s.logicalPageSize b n) := by
  cases ho with
  | refused => exact ⟨[], .refl .., .inl rfl⟩
  | served _ hs =>
    refine ⟨[], ⟨rfl, ?_, fun a ha => List.mem_append_left _ ha⟩, .inl rfl⟩
    rw [List.append_nil]
    exact hs.within
  | failed hb hfresh hfail => exact (not_failed h.geometry L (harena _ _ hb) hb hfresh hfail).elim
  | grown hb hg => exact ⟨_, ⟨hg.config, hg.within, fun _ ha => ha⟩, .inr ⟨_, _, hb, rfl⟩⟩
  | grownServed hb hg hs =>
    refine ⟨_, ⟨hg.config, hg.within.trans ?_, fun _ ha => ha⟩, .inr ⟨_, _, hb, rfl⟩⟩
    have hsize := congrArg SegmentConfig.logicalPageSize hg.config
    have hw := hs.within
    rwa [hsize] at hw

/-- A call of `allocate_internal` writes to nothing that was given out before. -/
theorem AllocateOutcome.spares {owned owned' : Nat → List Allocation}
    (ho : AllocateOutcome T L arena size s mem l owned ret s' mem' l' owned') (c : Nat) :
    Spares mem mem' (owned c) := by
  cases ho with
  | refused => exact .of_bytes rfl _
  | served _ hs => exact hs.payload c
  | failed => exact .of_bytes rfl _
  | grown _ hg => exact hg.payload c
  | grownServed _ hg hs => exact (hg.payload c).trans (hs.payload c)

theorem SystemInv.spares_live (h : SystemInv T L sys g) (hs : ∀ c, Spares mem mem' (g.owned c)) :
    Spares mem mem' sys.live := by
  intro y hy
  obtain ⟨c, _, hyc⟩ := h.owner (x := y) (by
    have : 0 < sys.live.count y := List.count_pos_iff.mpr hy
    omega)
  exact hs c y hyc

theorem AllocateOutcome.taken {owned owned' : Nat → List Allocation}
    (ho : AllocateOutcome T L arena size s mem l owned ret s' mem' l' owned') (hret : ret ≠ 0) :
    ⟨ret, L.granted s.sizeClass size⟩ ∈ owned' s'.lastUsed := by
  cases ho with
  | refused => exact absurd rfl hret
  | served => exact Function.update_self (f := owned) .. ▸ List.mem_cons_self
  | failed => exact absurd rfl hret
  | grown => exact absurd rfl hret
  | grownServed => exact Function.update_self (f := owned) .. ▸ List.mem_cons_self

theorem AllocateOutcome.mem_owned {owned owned' : Nat → List Allocation} {a : Nat}
    (ho : AllocateOutcome T L arena size s mem l owned ret s' mem' l' owned') (hx : x ∈ owned a) :
    x ∈ owned' a := by
  have hupdate : ∀ c y, x ∈ Function.update owned c (y :: owned c) a := by
    intro c y
    by_cases hac : a = c
    · subst hac
      rw [Function.update_self]
      exact List.mem_cons_of_mem _ hx
    · rwa [Function.update_of_ne hac]
  cases ho with
  | refused => exact hx
  | served => exact hupdate _ _
  | failed => exact hx
  | grown => exact hx
  | grownServed => exact hupdate _ _

/-- The loop drains the queue and keeps at most one pointer for the caller. -/
theorem processQueueLoop_spec (h : SystemInv T L sys g) (hcontrol : sys.control = .draining goal ret)
    (hreturn : returnInitialPointer = true ↔ goal ≠ .destroy ∧ T.page.supportsAnySize = false)
    (hfuel : sys.segment.deallocationQueue.length < fuel) :
    ∃ ret' s' mem' g',
      Segment.processQueueLoop T returnInitialPointer fuel ret sys.segment sys.memory =
        some (ret', s', mem') ∧
      SystemInv T L { sys with segment := s', memory := mem', control := .drained goal ret' } g' ∧
      (returnInitialPointer = false → ret' = ret) ∧
      Drained sys.segment sys.memory g.pages s' mem' g'.pages ∧ Spares sys.memory mem' sys.live := by
  induction fuel generalizing sys g ret with
  | zero => omega
  | succ fuel ih =>
    cases hq : sys.segment.deallocationQueue with
    | nil =>
      refine ⟨ret, sys.segment, sys.memory, g, ?_, h.drained hcontrol, fun _ => rfl,
        ⟨.refl .., hq, [], .refl ..⟩, .of_bytes rfl _⟩
      simp only [Segment.processQueueLoop, popDeallocationQueue_nil hq, if_true]
    | cons p queued =>
      obtain ⟨hp, g₁, hpages, _, hkeep, hfree⟩ := h.pop hcontrol hq
      have hlen : queued.length < fuel := by
        rw [hq, List.length_cons] at hfuel
        omega
      have hfirst : Touches sys.segment sys.memory g.pages []
          { sys.segment with deallocationQueue := queued } sys.memory g₁.pages :=
        ⟨rfl, .refl _ _, fun a ha => List.mem_append_left _ (hpages ▸ ha)⟩
      by_cases hret : returnInitialPointer = true ∧ ret = 0
      · obtain ⟨ret', s', mem', g', he, hinv, _, hd, hspares⟩ :=
          ih (hkeep (hreturn.mp hret.1).2 hret.2) rfl hlen
        refine ⟨ret', s', mem', g', ?_, hinv, fun hf => absurd hret.1 (by rw [hf]; decide),
          ⟨hfirst.trans hd.toTouches, hd.queue, hpages ▸ hd.releases⟩, hspares⟩
        simp only [Segment.processQueueLoop, popDeallocationQueue_cons hq, if_neg hp, if_pos hret]
        exact he
      · obtain ⟨s₂, mem₂, a, y, rest, g₂, hd, hy, howned, hf, hinv₂⟩ := hfree.deallocatePopped rfl
        have hqueue₂ : s₂.deallocationQueue.length < fuel := by
          rw [hf.queue]
          exact hlen
        obtain ⟨released₂, hr₂⟩ := hf.releases (hfree.segment.mem_of_owned (hy.symm.subset List.mem_cons_self))
        -- the pointer that is freed was in the queue, with no client
        have hspares₂ := hinv₂.spares_live fun c => howned ▸ hf.payload c
        obtain ⟨ret', s', mem', g', he, hinv, hkept, ⟨ht, hqueue, released, hr⟩, hspares⟩ := ih hinv₂ rfl hqueue₂
        have hsize : s₂.logicalPageSize = sys.segment.logicalPageSize :=
          congrArg SegmentConfig.logicalPageSize hf.config
        refine ⟨ret', s', mem', g', ?_, hinv, hkept, ⟨(hfirst.trans hf.touches).trans ht, hqueue,
          hpages ▸ ⟨_, hr₂.trans (hsize ▸ hr)⟩⟩, hspares₂.trans hspares⟩
        simp only [Segment.processQueueLoop, popDeallocationQueue_cons hq, if_neg hp, if_neg hret, hd]
        exact he

theorem deallocate_local (hlocal : T.concurrency = .threadLocal)
    (h : SystemInv T L (atRest s mem live) g) (hx : x ∈ live) :
    ∃ s' g', Segment.deallocate T x.ptr s mem = some (s', mem) ∧
      s' = Segment.pushDeallocationQueue x.ptr s ∧
      SystemInv T L (atRest s' mem (live.erase x)) g' ∧ g'.pages = g.pages := by
  obtain ⟨a, ha, _⟩ := h.owner (x := x) (by
    have : 0 < (atRest s mem live).live.count x := List.count_pos_iff.mpr hx
    omega)
  refine ⟨_, { g with queued := x :: g.queued }, ?_, rfl, ⟨h.segment_queue _, ?_, h.hand, h.kept, fun y => ?_⟩,
    rfl⟩
  · have hhead : s.head ≠ 0 := h.head_ne_zero ha
    rw [Segment.deallocate, if_neg hhead, if_pos hlocal]
  · rw [List.map_cons, ← h.queue]
    rfl
  · have hs := h.shared y
    have hc := (List.perm_cons_erase hx).count_eq y
    simp only [atRest, List.count_nil] at hs ⊢
    simp only [List.count_cons] at hc ⊢
    omega

theorem drain_spec (size : Nat) (h : SystemInv T L (atRest s mem live) g) :
    ∃ kept s' mem' g', Segment.processDeallocationQueue T (!T.page.supportsAnySize) s mem =
        some (kept, s', mem') ∧
      SystemInv T L { atRest s mem live with
        segment := s', memory := mem', control := .drained (.allocate size) kept } g' ∧
      Drained s mem g.pages s' mem' g'.pages ∧ Spares mem mem' live := by
  have hdrain : SystemInv T L { atRest s mem live with control := .draining (.allocate size) 0 } g :=
    ⟨h.segment, h.queue, h.hand, fun h0 => absurd rfl h0, h.shared⟩
  have hreturn : (!T.page.supportsAnySize) = true ↔
      Goal.allocate size ≠ .destroy ∧ T.page.supportsAnySize = false := by
    cases T.page.supportsAnySize <;> simp
  obtain ⟨kept, s', mem', g', he, hinv, _, hd⟩ :=
    processQueueLoop_spec hdrain rfl hreturn (Nat.lt_succ_self _)
  exact ⟨kept, s', mem', g', he, hinv, hd.1, hd.2⟩

theorem allocate_local (hlocal : T.concurrency = .threadLocal)
    (h : SystemInv T L (atRest s mem live) g) (hsize : T.page.supportsAnySize = true → size ≠ 0) :
    ∃ ret s' mem' g', Segment.allocate T arena size s mem = some (ret, s', mem') ∧
      SystemInv T L (atRest s' mem' (System.grant T L s.sizeClass size ret live)) g' ∧
      Touches s mem g.pages [] s' mem' g'.pages ∧ Spares mem mem' live := by
  obtain ⟨kept, s₁, mem₁, g₁, hprocess, hinv, ⟨ht, _, _⟩, hspares⟩ := drain_spec size h
  have hclass : s₁.sizeClass = s.sizeClass := congrArg SegmentConfig.sizeClass ht.config
  rw [Segment.allocate, if_pos hlocal, hprocess]
  by_cases hkept : kept = 0
  · have hhand : g₁.inHand = [] := by
      have hp := hinv.hand
      rw [Control.pointers, if_pos hkept] at hp
      exact List.map_eq_nil_iff.mp hp.symm
    have harena : System.ArenaAnswersFor T
        { atRest s mem live with segment := s₁, memory := mem₁, control := .drained (.allocate size) kept }
        size arena := fun hne => absurd hlocal hne
    rcases hinv.allocateInternal hhand harena with ⟨h0, _⟩ | ⟨⟨ret, s', mem'⟩, g', hal, hinv', ho⟩
    · exact absurd h0.2 (hsize h0.1)
    · obtain ⟨new, ht', hnew⟩ := ho.touches (fun _ _ hg => absurd hlocal hg.1) hinv.segment
      have hnil : new = [] := by
        rcases hnew with hnil | ⟨n, b, hg, _⟩
        · exact hnil
        · exact absurd hlocal hg.1
      subst hnil
      refine ⟨ret, s', mem', g', ?_, ?_, ht.trans ht', hspares.trans (hinv.spares_live ho.spares)⟩
      · simp only [hkept, ne_eq, not_true_eq_false, if_false]
        exact hal
      · have hconfig : s'.sizeClass = s.sizeClass := (congrArg SegmentConfig.sizeClass ht'.config).trans hclass
        simp only [System.afterAllocate, hconfig] at hinv'
        exact hinv'
  · obtain ⟨g', hinv', hpages, _⟩ := hinv.grantKept rfl hkept
    refine ⟨kept, s₁, mem₁, g', ?_, ?_, hpages ▸ ht, hspares⟩
    · simp only [hkept, ne_eq, not_false_eq_true, if_true]
    · simp only [System.afterAllocate, hclass] at hinv'
      exact hinv'

theorem deallocate_direct {a ptr : Nat} (hdirect : T.concurrency ≠ .threadLocal)
    (h : SystemInv T L (atRest s mem live) g) (hx : x ∈ live) (hxa : x ∈ g.owned a)
    (hfrees : Frees L s mem a x ptr) :
    ∃ s' mem' g' rest, Segment.deallocate T ptr s mem = some (s', mem') ∧
      Segment.deallocateOnPage T a ptr s mem = some (s', mem') ∧
      SystemInv T L (atRest s' mem' (live.erase x)) g' ∧ (g.owned a).Perm (x :: rest) ∧
      g'.owned = Function.update g.owned a rest ∧
      Freed T L s mem g.pages g.owned a rest s' mem' g'.pages := by
  have hhead : s.head ≠ 0 := h.head_ne_zero (h.segment.mem_of_owned hxa)
  obtain ⟨s', mem', l', rest, he, hpage, hp, hf, hcount⟩ := h.deallocateInternal hxa hfrees
  refine ⟨s', mem', ⟨l', Function.update g.owned a rest, g.queued, g.inHand⟩, rest, ?_, hpage,
    ⟨hf.inv, ?_, h.hand, h.kept, fun y => ?_⟩, hp, rfl, hf⟩
  · rw [Segment.deallocate, if_neg hhead, if_neg hdirect]
    exact he
  · rw [← h.queue]
    exact hf.queue
  · have hs := h.shared y
    have hy := hcount y
    have hc := (List.perm_cons_erase hx).count_eq y
    rw [List.count_singleton] at hy
    rw [List.count_cons] at hc
    simp only [atRest, List.count_nil] at hs ⊢
    omega

theorem allocate_direct (hdirect : T.concurrency ≠ .threadLocal)
    (h : SystemInv T L (atRest s mem live) g) (hsize : T.page.supportsAnySize = true → size ≠ 0)
    (harena : ArenaPromise T s g.pages arena size) :
    ∃ ret s' mem' g', Segment.allocate T arena size s mem = some (ret, s', mem') ∧
      SystemInv T L (atRest s' mem' (System.grant T L s.sizeClass size ret live)) g' ∧
      AllocateOutcome T L arena size s mem g.pages g.owned ret s' mem' g'.pages g'.owned := by
  have hanswers : System.ArenaAnswersFor T (atRest s mem live) size arena :=
    fun _ => ⟨g.pages, h.lists, harena⟩
  have hhand : g.inHand = [] := List.map_eq_nil_iff.mp h.hand.symm
  rcases h.allocateInternal hhand hanswers with ⟨h0, _⟩ | ⟨⟨ret, s', mem'⟩, g', hal, hinv, ho⟩
  · exact absurd h0.2 (hsize h0.1)
  · refine ⟨ret, s', mem', g', ?_, ?_, ho⟩
    · rw [Segment.allocate, if_neg hdirect]
      exact hal
    · have hclass : s'.sizeClass = s.sizeClass :=
        congrArg SegmentConfig.sizeClass (ho.shared h.segment).2.2.1
      simp only [System.afterAllocate, hclass] at hinv
      exact hinv

end
end Metamalloc.Segments
