import Metamalloc.Segments.SegmentCalls
import Metamalloc.Segments.LookupAgreement
import Metamalloc.Segments.ThreadLocalChunks

/-! Requests above the largest object size of a segment. The size is compared in
`allocate_internal`; a thread-local segment of one size class may answer from its
deallocation queue before it gets there. -/
namespace Metamalloc.Segments
open Library.Word64 Library.ByteMemory Library.LinkedList Pages

/-- Before a drain that frees all of its pointers, no page in use was released. -/
def DrainsSafely (T : SegmentType) (sys : System) (action : Action) : Prop :=
  T.concurrency = .threadLocal → T.page.supportsAnySize = true →
    UntilDestroyed sys action ∧ RecyclesEmpty sys action

/-- The queue answers a request before its size is looked at. -/
def AnswersFromQueue (T : SegmentType) (s : Segment) : Prop :=
  T.concurrency = .threadLocal ∧ T.page.supportsAnySize = false ∧ s.deallocationQueue ≠ []

section
variable {T : SegmentType} {L : PageLaws T.page} {s s' : Segment} {mem mem' : Memory} {sys sys' : System}
  {action : Action} {arena : ArenaAnswers} {size ptr ret ret' fuel : Nat}

theorem deallocateOnPage_queue {a : Nat} (h : Segment.deallocateOnPage T a ptr s mem = some (s', mem')) :
    s'.deallocationQueue = s.deallocationQueue := by
  unfold Segment.deallocateOnPage at h
  split at h
  · cases h
  dsimp only at h
  split at h
  · split at h
    · cases h
      exact config_removeLogicalPage.2
    · cases h
      rfl
  · cases h
    rfl

theorem deallocateInternal_queue (h : Segment.deallocateInternal T ptr s mem = some (s', mem')) :
    s'.deallocationQueue = s.deallocationQueue := by
  unfold Segment.deallocateInternal at h
  split at h
  · exact deallocateOnPage_queue h
  · unfold Segment.deallocateBySearch at h
    split at h
    · cases h
    · split at h
      · cases h
        rfl
      · exact deallocateOnPage_queue h

theorem recycleFreeLoop_queue {num iter iterPrevious : Nat}
    (h : Segment.recycleFreeLoop fuel num iter iterPrevious s mem = some (s', mem')) :
    s'.deallocationQueue = s.deallocationQueue := by
  induction fuel generalizing num iter iterPrevious s mem with
  | zero => cases h
  | succ fuel ih =>
    rw [Segment.recycleFreeLoop] at h
    split at h
    · cases h
      rfl
    split at h
    · cases h
    split at h
    · dsimp only at h
      split at h
      · cases h
      · exact (ih h).trans config_removeLogicalPage.2
    · exact ih h

/-- Without growth, a request moves at most the cursor. -/
theorem allocateInternal_local (hlocal : T.concurrency = .threadLocal)
    (h : Segment.allocateInternal T arena size s mem = some (ret, s', mem')) :
    s'.deallocationQueue = s.deallocationQueue := by
  unfold Segment.allocateInternal at h
  split at h
  · cases h
    rfl
  split at h
  · cases h
  · cases h
    rfl
  · cases h
    rfl

theorem allocateInternal_oversized (hsize : s.maxObjectSize < size) :
    Segment.allocateInternal T arena size s mem = some (0, s, mem) := by
  rw [Segment.allocateInternal, if_pos hsize]

theorem pointersOut_iff : 0 ∉ sys.pointersOut ↔ (0 ∉ sys.live.map Allocation.ptr ∧
    0 ∉ sys.deallocating.map Allocation.ptr) ∧ 0 ∉ sys.segment.deallocationQueue ∧ 0 ∉ sys.control.pointers := by
  simp only [System.pointersOut, List.mem_append, not_or, and_assoc]

theorem nonnull_erase {x : Allocation} {out : List Allocation} (h : 0 ∉ out.map Allocation.ptr) :
    0 ∉ (out.erase x).map Allocation.ptr := by
  intro h0
  obtain ⟨y, hy, hptr⟩ := List.mem_map.mp h0
  exact h (List.mem_map.mpr ⟨y, List.mem_of_mem_erase hy, hptr⟩)

theorem nonnull_of_mem {x : Allocation} {out : List Allocation} (h : 0 ∉ out.map Allocation.ptr)
    (hx : x ∈ out) : x.ptr ≠ 0 := by
  intro h0
  exact h (List.mem_map.mpr ⟨x, hx, h0⟩)

theorem nonnull_grant {live : List Allocation} (h : 0 ∉ live.map Allocation.ptr) (sizeClass : Nat) :
    0 ∉ (System.grant T L sizeClass size ret live).map Allocation.ptr := by
  unfold System.grant
  split
  · exact h
  · rename_i hret
    exact List.not_mem_cons_of_ne_of_not_mem (Ne.symm hret) h

theorem nonnull_afterAllocate (h : 0 ∉ sys.pointersOut)
    (hqueue : s'.deallocationQueue = sys.segment.deallocationQueue) :
    0 ∉ (sys.afterAllocate T L size (ret, s', mem')).pointersOut := by
  rw [pointersOut_iff] at h ⊢
  obtain ⟨⟨hlive, hdeallocating⟩, hq, _⟩ := h
  exact ⟨⟨nonnull_grant hlive _, hdeallocating⟩, by rwa [← hqueue] at hq, List.not_mem_nil⟩

theorem nonnull_pop {goal : Goal} (h : 0 ∉ sys.pointersOut) (hdraining : sys.control = .draining goal ret)
    (hp : sys.perform T L .pop = some sys') : 0 ∉ sys'.pointersOut := by
  obtain ⟨⟨hlive, hdeallocating⟩, hqueue, hcontrol⟩ := pointersOut_iff.mp h
  rw [hdraining] at hcontrol
  cases hq : sys.segment.deallocationQueue with
  | nil =>
    simp only [System.perform, hdraining, popDeallocationQueue_nil hq, if_true] at hp
    cases hp
    exact pointersOut_iff.mpr ⟨⟨hlive, hdeallocating⟩, hqueue, hcontrol⟩
  | cons p queued =>
    rw [hq] at hqueue
    obtain ⟨hp0, hqueued⟩ := List.ne_and_not_mem_of_not_mem_cons hqueue
    simp only [System.perform, hdraining, popDeallocationQueue_cons hq, if_neg hp0.symm] at hp
    split at hp
    · cases hp
      refine pointersOut_iff.mpr ⟨⟨hlive, hdeallocating⟩, hqueued, ?_⟩
      rw [Control.pointers, if_neg hp0.symm]
      exact List.not_mem_cons_of_ne_of_not_mem hp0 List.not_mem_nil
    · cases hp
      exact pointersOut_iff.mpr ⟨⟨hlive, hdeallocating⟩, hqueued,
        List.not_mem_cons_of_ne_of_not_mem hp0 hcontrol⟩

/-- One step of a thread-local segment, whatever has happened to its pages. -/
theorem nonnull_step (hlocal : T.concurrency = .threadLocal) (h : 0 ∉ sys.pointersOut)
    (ha : sys.MayDo T action) (hp : sys.perform T L action = some sys') : 0 ∉ sys'.pointersOut := by
  have hparts := pointersOut_iff.mp h
  obtain ⟨⟨hlive, hdeallocating⟩, hqueue, hcontrol⟩ := hparts
  cases action with
  | store address value =>
    cases hp
    exact h
  | callDeallocate x =>
    rw [System.perform] at hp
    split at hp
    · cases hp
      exact pointersOut_iff.mpr ⟨⟨nonnull_erase hlive, hdeallocating⟩, hqueue, hcontrol⟩
    · cases hp
      refine pointersOut_iff.mpr ⟨⟨nonnull_erase hlive, ?_⟩, hqueue, hcontrol⟩
      exact List.not_mem_cons_of_ne_of_not_mem (nonnull_of_mem hlive ha.1).symm hdeallocating
  | push x =>
    cases hp
    refine pointersOut_iff.mpr ⟨⟨hlive, nonnull_erase hdeallocating⟩, ?_, hcontrol⟩
    exact List.not_mem_cons_of_ne_of_not_mem (nonnull_of_mem hdeallocating ha.2.1).symm hqueue
  | deallocateInternal x => exact absurd hlocal ha.1
  | allocate size arena => exact absurd hlocal ha.1
  | destroy => exact absurd hlocal ha.1
  | drain goal =>
    cases hp
    exact pointersOut_iff.mpr ⟨⟨hlive, hdeallocating⟩, hqueue, List.not_mem_nil⟩
  | pop =>
    obtain ⟨goal, ret, hdraining⟩ := ha
    exact nonnull_pop h hdraining hp
  | deallocatePopped =>
    obtain ⟨goal, ret, pointer, hfreeing⟩ := ha
    simp only [System.perform, hfreeing] at hp
    obtain ⟨⟨s', mem'⟩, he, rfl⟩ := Option.map_eq_some_iff.mp hp
    rw [hfreeing] at hcontrol
    rw [← deallocateInternal_queue he] at hqueue
    exact pointersOut_iff.mpr ⟨⟨hlive, hdeallocating⟩, hqueue, (List.ne_and_not_mem_of_not_mem_cons hcontrol).2⟩
  | finish arena =>
    obtain ⟨goal, ret, hdrained, _⟩ := ha
    cases goal with
    | allocate size =>
      simp only [System.perform, hdrained] at hp
      split at hp
      · cases hp
        exact nonnull_afterAllocate h rfl
      · obtain ⟨⟨ret', s', mem'⟩, he, rfl⟩ := Option.map_eq_some_iff.mp hp
        exact nonnull_afterAllocate h (allocateInternal_local hlocal he)
    | destroy =>
      simp only [System.perform, hdrained] at hp
      obtain ⟨⟨s', mem'⟩, he, rfl⟩ := Option.map_eq_some_iff.mp hp
      obtain ⟨mem'', _, heq⟩ := Option.map_eq_some_iff.mp he
      cases heq
      exact pointersOut_iff.mpr ⟨⟨hlive, hdeallocating⟩, hqueue, List.not_mem_nil⟩
  | recycleFreeLogicalPages =>
    obtain ⟨⟨s', mem'⟩, he, rfl⟩ := Option.map_eq_some_iff.mp hp
    rw [← recycleFreeLoop_queue he] at hqueue
    exact pointersOut_iff.mpr ⟨⟨hlive, hdeallocating⟩, hqueue, hcontrol⟩

theorem HonestRun.nonnull {condition : System → Action → Prop} (hlocal : T.concurrency = .threadLocal)
    (h : HonestRun T L condition sys) : 0 ∉ sys.pointersOut := by
  induction h with
  | created h =>
    cases h with
    | create hword hb hp _ h =>
      have hqueue := (create_spec L hword hb hp h).queue
      exact pointersOut_iff.mpr ⟨⟨List.not_mem_nil, List.not_mem_nil⟩, hqueue ▸ List.not_mem_nil,
        List.not_mem_nil⟩
    | step _ _ hc _ => exact hc.elim
  | step _ ha _ hp ih => exact nonnull_step hlocal ih ha hp

/-- A pointer that is kept for the caller stays the one that is returned. -/
theorem processQueueLoop_kept (hret : ret ≠ 0)
    (h : Segment.processQueueLoop T true fuel ret s mem = some (ret', s', mem')) : ret' = ret := by
  induction fuel generalizing s mem with
  | zero => cases h
  | succ fuel ih =>
    rw [Segment.processQueueLoop] at h
    dsimp only at h
    split at h
    · cases h
      rfl
    rw [if_neg (fun hc => hret hc.2)] at h
    split at h
    · cases h
    · exact ih h

/-- A queue with a pointer in it answers every request, or the drain of the rest goes wrong. -/
theorem allocate_answersFromQueue (hanswers : AnswersFromQueue T s) (hqueue : 0 ∉ s.deallocationQueue)
    (h : Segment.allocate T arena size s mem = some (ret, s', mem')) : ret ≠ 0 := by
  obtain ⟨hlocal, hfixed, hne⟩ := hanswers
  obtain ⟨p, queued, hq⟩ := List.exists_cons_of_ne_nil hne
  have hp0 : p ≠ 0 := by
    rintro rfl
    exact hqueue (hq ▸ List.mem_cons_self)
  rw [Segment.allocate, if_pos hlocal] at h
  split at h
  · cases h
  rename_i kept s₁ mem₁ hprocess
  rw [Segment.processDeallocationQueue, hfixed, Segment.processQueueLoop, popDeallocationQueue_cons hq] at hprocess
  dsimp only at hprocess
  rw [if_neg hp0, if_pos ⟨rfl, rfl⟩] at hprocess
  obtain rfl := processQueueLoop_kept hp0 hprocess
  rw [if_pos hp0] at h
  cases h
  exact hp0

theorem HonestRun.drainsSafely (hlocal : T.concurrency = .threadLocal) (hany : T.page.supportsAnySize = true)
    (h : HonestRun T L (DrainsSafely T) sys) : HonestRun T L (KeepsPages T) sys := by
  induction h with
  | created h => exact .created h
  | @step sys sys' action _ ha hc hp ih =>
    obtain ⟨huntil, hrecycles⟩ := hc hlocal hany
    refine ih.step ha ⟨huntil, ?_, hrecycles⟩ hp
    cases action with
    | allocate size arena => exact absurd hlocal ha.1
    | finish arena => exact fun hne => absurd hlocal hne
    | _ => trivial

/-- A drain that frees everything leaves the answer to `allocate_internal`. -/
theorem allocate_oversized_drained {g : Ghost} (h : SystemInv T L sys g) (hidle : sys.control = .idle)
    (hlocal : T.concurrency = .threadLocal) (hany : T.page.supportsAnySize = true)
    (hsize : sys.segment.maxObjectSize < size) :
    ∃ s' mem', Segment.allocate T arena size sys.segment sys.memory = some (0, s', mem') := by
  have hhand := h.hand
  rw [hidle] at hhand
  have hdrain : SystemInv T L { sys with control := .draining (.allocate size) 0 } g :=
    ⟨h.segment, h.queue, hhand, fun h0 => absurd rfl h0, h.shared⟩
  have hreturn : false = true ↔ Goal.allocate size ≠ .destroy ∧ T.page.supportsAnySize = false := by simp [hany]
  obtain ⟨ret, s', mem', g', he, _, hkept, hdrained, -⟩ :=
    processQueueLoop_spec hdrain rfl hreturn (Nat.lt_succ_self _)
  have hmax : s'.maxObjectSize = sys.segment.maxObjectSize :=
    congrArg SegmentConfig.maxObjectSize hdrained.config
  refine ⟨s', mem', ?_⟩
  rw [Segment.allocate, if_pos hlocal, Segment.processDeallocationQueue, hany, Bool.not_true, he, hkept rfl]
  dsimp only
  rw [if_neg (not_not.mpr rfl), allocateInternal_oversized (hmax ▸ hsize)]

end

/-- In every run, an oversized request is refused unless the queue answers it first. -/
theorem allocate_oversized_null_iff {concurrency : ConcurrencyPolicy} {kind : PageKind}
    {recycling : PageRecyclingPolicy} {aligned : Bool} {sys : System} {size : Nat} (arena : ArenaAnswers)
    (h : HonestRun ⟨concurrency, kind.pageType, recycling, aligned⟩ kind.laws
      (DrainsSafely ⟨concurrency, kind.pageType, recycling, aligned⟩) sys)
    (hidle : sys.control = .idle) (hsize : sys.segment.maxObjectSize < size) :
    (∃ s' mem', Segment.allocate ⟨concurrency, kind.pageType, recycling, aligned⟩ arena size sys.segment
        sys.memory = some (0, s', mem')) ↔
      ¬ AnswersFromQueue ⟨concurrency, kind.pageType, recycling, aligned⟩ sys.segment := by
  have hguard : ∀ T : SegmentType, Segment.allocateInternal T arena size sys.segment sys.memory =
      some (0, sys.segment, sys.memory) := fun _ => allocateInternal_oversized hsize
  constructor
  · rintro ⟨s', mem', he⟩ hanswers
    have hqueue := (pointersOut_iff.mp (h.nonnull hanswers.1)).2.1
    exact allocate_answersFromQueue hanswers hqueue he rfl
  · intro hanswers
    by_cases hlocal : concurrency = .threadLocal
    · subst hlocal
      cases hany : kind.pageType.supportsAnySize with
      | true =>
        obtain ⟨g, hg⟩ := ((h.drainsSafely rfl hany).reachable fun _ _ hc => hc.growsInFull).keepsPages
        exact allocate_oversized_drained hg hidle rfl hany hsize
      | false =>
        have hempty : sys.segment.deallocationQueue = [] := by
          by_contra hne
          exact hanswers ⟨rfl, hany, hne⟩
        refine ⟨sys.segment, sys.memory, ?_⟩
        rw [Segment.allocate, if_pos rfl, Segment.processDeallocationQueue, Segment.processQueueLoop,
          popDeallocationQueue_nil hempty]
        dsimp only
        rw [if_pos rfl]
        dsimp only
        rw [if_neg (not_not.mpr rfl), hguard]
    · refine ⟨sys.segment, sys.memory, ?_⟩
      rw [Segment.allocate, if_neg hlocal, hguard]

theorem allocate_oversized_null_iff_of_one :
    ∃ sys, (HonestRun oneChunkType LogicalPage.laws (DrainsSafely oneChunkType) sys ∧ sys.control = .idle ∧
        sys.segment.maxObjectSize < 5000) ∧
      ((∃ s' mem', Segment.allocate oneChunkType refusingArena 5000 sys.segment sys.memory =
        some (0, s', mem')) ↔ ¬ AnswersFromQueue oneChunkType sys.segment) := by
  obtain ⟨sys, hsys⟩ := Option.isSome_iff_exists.mp (by decide +kernel : oneChunkTaken.isSome = true)
  have hstate : oneChunkTaken.map (fun sys => (decide (sys.control = .idle), sys.segment.maxObjectSize)) =
      some (true, 4032) := by decide +kernel
  rw [hsys] at hstate
  simp only [Option.map_some, Option.some.injEq, Prod.mk.injEq, decide_eq_true_eq] at hstate
  have hrun : HonestRun oneChunkType LogicalPage.laws (DrainsSafely oneChunkType) sys :=
    honestRun_oneChunkTaken (fun _ hlocal => absurd hlocal (by decide)) hsys
  have hsize : sys.segment.maxObjectSize < 5000 := by omega
  exact ⟨sys, ⟨hrun, hstate.1, hsize⟩, @allocate_oversized_null_iff .singleThread .logicalPage .immediate true sys
    5000 refusingArena hrun hstate.1 hsize⟩

/-- A chunk is taken and given back; the queue then answers a request for more than a page. -/
theorem oversized_answered_from_queue :
    ∃ sys, HonestRun ⟨.threadLocal, LogicalPage.pageType, .immediate, false⟩ LogicalPage.laws
        (DrainsSafely ⟨.threadLocal, LogicalPage.pageType, .immediate, false⟩) sys ∧
      (sys.control = .idle ∧ sys.segment.maxObjectSize = 4032) ∧
      ∃ s' mem', Segment.allocate ⟨.threadLocal, LogicalPage.pageType, .immediate, false⟩ refusingArena 5000
        sys.segment sys.memory = some (12224, s', mem') := by
  have hstate : (afterSteps ⟨.threadLocal, LogicalPage.pageType, .immediate, false⟩ LogicalPage.laws twoPages
      (fun _ _ => true) (request 64 ++ giveBack ⟨12224, 64⟩)).map (fun sys =>
        (decide (sys.control = .idle), sys.segment.maxObjectSize,
          (Segment.allocate ⟨.threadLocal, LogicalPage.pageType, .immediate, false⟩ refusingArena 5000 sys.segment
            sys.memory).map Prod.fst)) = some (true, 4032, some 12224) := by decide +kernel
  obtain ⟨sys, _, h, hstate⟩ := exists_afterSteps rfl (by decide) (by decide)
    (by simp [request, giveBack, Action.Refused]) hstate
  simp only [Prod.mk.injEq, decide_eq_true_eq] at hstate
  obtain ⟨hidle, hmax, hcall⟩ := hstate
  obtain ⟨⟨ret, s', mem'⟩, he, rfl⟩ := Option.map_eq_some_iff.mp hcall
  refine ⟨sys, ?_, ⟨hidle, hmax⟩, s', mem', he⟩
  exact h.honestRun_local rfl fun _ _ _ _ hany => by cases hany

end Metamalloc.Segments
