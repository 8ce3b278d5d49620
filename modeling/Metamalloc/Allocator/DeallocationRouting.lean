import Metamalloc.Allocator.HeapPlacement

/-! Where `deallocate` of the allocator delivers a pointer, in every run in which the intervals of
the local heaps stay right. -/
namespace Metamalloc.Allocator
open Library.Word64 Library.ByteMemory Library.LinkedList Pages Segments Heaps ScalableAllocator

/-- The invariant of a run: every cached heap exists, and no heap beyond the places that are taken. -/
structure RunInv (A : AllocatorType) (params : CreationParams) (sys : AllocatorSystem) (built : Nat → Prop)
    (g : Option Nat × SegmentId → Ghost) : Prop extends HeapsInv A sys built g where
  params_eq : sys.allocator.localHeapCreationParams = params.localHeap
  cached : ∀ i < sys.allocator.cachedThreadLocalHeapCount, built i
  places : ∀ i, built i → i < sys.allocator.cachedThreadLocalHeapCount ∨ i < sys.allocator.activeLocalHeapCount

section
variable {A : AllocatorType} {params : CreationParams} {creation : CreationAnswers}
  {sys sys' : AllocatorSystem} {built : Nat → Prop} {g g' : Option Nat × SegmentId → Ghost}
  {action : AllocatorAction}

theorem RunInv.next (h : RunInv A params sys built g) (hinv : HeapsInv A sys' built g')
    (hsame : SameSetup sys.allocator sys'.allocator)
    (hactive : sys.allocator.activeLocalHeapCount ≤ sys'.allocator.activeLocalHeapCount) :
    RunInv A params sys' built g' := by
  refine ⟨hinv, hsame.params.trans h.params_eq, ?_, fun i hi => ?_⟩
  · rw [hsame.cached]
    exact h.cached
  · rw [hsame.cached]
    have := h.places i hi
    omega

/-- The lookup gives a thread without a heap the next place, if there is one. -/
theorem RunInv.getThreadLocalHeap_ok {thread : Nat} {answers : HeapAnswers} (h : RunInv A params sys built g)
    (hpolicy : A.localHeap.concurrency = .threadLocal) (hsound : SoundCreation params creation)
    (ha : sys.MayDo (.getThreadLocalHeap thread answers))
    (hc : sys.KeepsIntervals A (.getThreadLocalHeap thread answers))
    (hp : sys.perform A (.getThreadLocalHeap thread answers) = some sys') :
    (∃ built' g', RunInv A params sys' built' g') ∧
      Spares sys.memory sys'.memory (sys.live.map Held.allocation) := by
  obtain ⟨⟨slot, a', mem'⟩, hget, rfl⟩ := Option.map_eq_some_iff.mp hp
  rcases getThreadLocalHeap_cases hget with
    ⟨-, rfl, rfl, -⟩ | ⟨-, -, a₁, rfl, ⟨hlazy, hcreate⟩ | ⟨hcached, rfl, rfl, rfl⟩⟩
  · exact ⟨⟨built, g, h⟩, .of_bytes rfl _⟩
  · have hvacant : ¬ built sys.allocator.activeLocalHeapCount := fun hi => by
      have := h.places _ hi
      omega
    obtain ⟨success, heap, new, rfl, rfl, hplaced⟩ := h.toHeapsInv.createLocalHeap hpolicy hvacant
      (h.params_eq ▸ hsound.localPower) (h.params_eq ▸ hsound.localBytes) rfl
      (fun hb => (ha _ hb).mono fun c hc => h.mapped hc) (hc _) hcreate
    have hsame : SameMembers sys.allocator
        (sys.allocator.setHeapAt (some sys.allocator.activeLocalHeapCount) heap) := sameMembers_setHeapAt
    have hinv := hplaced.heapsInv
    have hle : sys.allocator.activeLocalHeapCount ≤ sys.allocator.activeLocalHeapCount + 1 := Nat.le_succ _
    rw [← hsame.active] at hle
    refine ⟨⟨_, _, hinv.withThreads hle (hinv.storage_update hle fun j hj => ?_), ?_, fun j hj => ?_,
      fun j hj => ?_⟩, hplaced.spares⟩
    · cases success with
      | false => cases hj
      | true =>
        cases hj
        exact ⟨.inr ⟨rfl, rfl⟩, Nat.lt_succ_self _⟩
    · exact hsame.params.trans h.params_eq
    · exact .inl (h.cached j (hsame.cached ▸ hj))
    · dsimp only
      rw [hsame.cached, hsame.active]
      rcases hj with hj | ⟨_, rfl⟩
      · have := h.places j hj
        omega
      · exact .inr (Nat.lt_succ_self _)
  · have hle := Nat.le_succ sys.allocator.activeLocalHeapCount
    refine ⟨⟨built, g, h.next (h.withThreads hle (h.storage_update hle fun j hj => ?_)) ⟨rfl, rfl, rfl⟩ hle⟩,
      .of_bytes rfl _⟩
    cases hj
    exact ⟨h.cached _ hcached, Nat.lt_succ_self _⟩

theorem RunInv.perform_ok (h : RunInv A params sys built g) (hpolicy : A.localHeap.concurrency = .threadLocal)
    (hsound : SoundCreation params creation)
    (ha : sys.MayDo action) (hc : sys.KeepsIntervals A action) (hp : sys.perform A action = some sys') :
    ∃ built' g', RunInv A params sys' built' g' := by
  cases action with
  | getThreadLocalHeap thread answers => exact (h.getThreadLocalHeap_ok hpolicy hsound ha hc hp).1
  | allocateLocal thread size arena =>
    obtain ⟨i, hi, he⟩ := Option.bind_eq_some_iff.mp hp
    obtain ⟨hbuilt, hactive⟩ := h.storage thread i hi
    obtain ⟨sys₁, g₁, he₁, hinv, hsame, -⟩ := h.allocateLocal_ok size arena hpolicy hbuilt hactive
    cases he.symm.trans he₁
    exact ⟨built, g₁, h.next hinv hsame.toSameSetup hsame.active.ge⟩
  | allocateCentral size arena =>
    obtain ⟨sys₁, g₁, he₁, hinv, hsame, -⟩ := h.allocateCentral_ok ha hc
    cases hp.symm.trans he₁
    exact ⟨built, g₁, h.next hinv hsame.toSameSetup hsame.active.ge⟩
  | deallocate x =>
    obtain ⟨_, s', mem', g', _, _, _, he, _, hinv, -⟩ := h.deallocate_ok ha
    rw [AllocatorSystem.perform, he] at hp
    cases hp
    have hsame : SameMembers sys.allocator (sys.allocator.setSegmentAt x.place s') := sameMembers_setSegmentAt _
    exact ⟨built, g', h.next hinv hsame.toSameSetup hsame.active.ge⟩
  | recycle owner =>
    obtain ⟨⟨heap', mem'⟩, he, rfl⟩ := Option.map_eq_some_iff.mp hp
    have ho : Built built owner := by
      cases owner with
      | none => trivial
      | some i =>
        obtain ⟨thread, hi⟩ := ha i rfl
        exact (h.storage thread i hi).1
    obtain ⟨g', hinv⟩ := h.recycleSegments_ok ho (fun id a hal hflag =>
      ((h.heapInv ho).segmentInv id |>.used_eq_zero hal).mp (hc id _ (h.lists ho id) a hal hflag)) he
    have hsame : SameMembers sys.allocator (sys.allocator.setHeapAt owner heap') := sameMembers_setHeapAt
    exact ⟨built, g', h.next hinv hsame.toSameSetup hsame.active.ge⟩
  | exit thread =>
    obtain ⟨hinv, hsame, hactive⟩ := h.exit_ok hc hp
    exact ⟨built, g, h.next hinv hsame hactive.ge⟩
  | store address value =>
    obtain ⟨x, hx, hlo, hhi⟩ := ha
    cases hp
    exact ⟨built, g, h.next (h.store_ok hx hlo hhi value) (.refl _) le_rfl⟩

end

section
variable {A : AllocatorType} {params : CreationParams} {answers : CreationAnswers} {sys : AllocatorSystem}
  {x : Held}

theorem AllocatorRun.inv (hpolicy : A.localHeap.concurrency = .threadLocal)
    (hsound : SoundCreation params answers)
    (h : AllocatorRun A params answers (AllocatorSystem.KeepsIntervals A) sys) :
    ∃ built g, RunInv A params sys built g := by
  induction h with
  | create hfresh h =>
    obtain ⟨heap, mem₁, cached, hcentral, _, _, hcached⟩ := create_succeeded h
    obtain ⟨g₀, h₀⟩ := laid_central (A := A) (a := { setThreadLocalHeapCacheCount _ {} with
        centralHeap := heap
        arenaPageAlignment := params.arenaPageAlignment
        localHeapCreationParams := params.localHeap
        maxThreadLocalHeapCount := params.metadataBufferSize / A.localHeapSize
        cachedThreadLocalHeapCount := cached }) hsound hfresh hcentral rfl rfl rfl rfl
    rw [List.range_eq_range'] at hcached
    obtain ⟨built, g, hlaid, hsame⟩ :=
      h₀.createCachedHeaps hpolicy hsound hfresh hcached
    have hcount : _ = cached := hsame.cached
    refine ⟨built, g, hlaid.toHeapsInv, hlaid.params_eq, fun i hi => ?_, fun i hi => .inl ?_⟩
    · rw [hlaid.built_iff, Nat.zero_add]
      exact hcount ▸ hi
    · rw [hlaid.built_iff, Nat.zero_add] at hi
      exact hcount.symm ▸ hi
  | step _ ha hc hp ih =>
    obtain ⟨built, g, hinv⟩ := ih
    exact hinv.perform_ok hpolicy hsound ha hc hp

/-- The central heap, or one that a thread has stored. -/
def AllocatorSystem.InUse (sys : AllocatorSystem) (owner : Option Nat) : Prop :=
  ∀ i, owner = some i → ∃ thread, sys.allocator.threadLocalStorage thread = some i

/-- `deallocate` delivers the pointer to a segment that lists its page and changes nothing else; no
other segment of a heap in use lists a page around it. -/
def AllocatorSystem.Routed (A : AllocatorType) (sys : AllocatorSystem) (ptr : Nat) : Prop :=
  ∃ owner id l page, sys.Lists owner id l ∧ page ∈ l ∧
    onPage ((sys.allocator.heapAt owner).segment id).logicalPageSize page ptr = true ∧
    (∃ s' mem', deallocate A ptr sys.allocator sys.memory =
        some (sys.allocator.setHeapAt owner ((sys.allocator.heapAt owner).setSegment id s'), mem') ∧
      TakenBack ((A.heapType owner).segmentType id) page ptr ((sys.allocator.heapAt owner).segment id)
        sys.memory s' mem') ∧
    ∀ owner' id' l' page', sys.InUse owner' → sys.Lists owner' id' l' → page' ∈ l' →
      onPage ((sys.allocator.heapAt owner').segment id').logicalPageSize page' ptr = true →
      owner' = owner ∧ id' = id

theorem onPage_iff {pageSize page address : Nat} :
    onPage pageSize page address = true ↔ page ≤ address ∧ address < page + pageSize := by
  simp [onPage]

/-- As long as the intervals of the local heaps stay right, every pointer that is given back reaches
the segment that lists its page. -/
theorem deallocate_reaches_page (hpolicy : A.localHeap.concurrency = .threadLocal)
    (hsound : SoundCreation params answers)
    (h : AllocatorRun A params answers (AllocatorSystem.KeepsIntervals A) sys) :
    ∀ x ∈ sys.live, sys.Routed A x.ptr := by
  intro x hx
  obtain ⟨built, g, hinv⟩ := h.inv hpolicy hsound
  have hbuilt := (hinv.held x hx).1
  obtain ⟨a, s', mem', _, ha, hlo, hhi, he, htaken, _⟩ := hinv.deallocate_ok hx
  refine ⟨x.owner, x.segment, _, a, hinv.lists hbuilt x.segment, ha, onPage_iff.mpr ⟨hlo, hhi⟩,
    ⟨s', mem', he, htaken⟩, fun o' id' l' page' huse hlists hpage hon => ?_⟩
  have hbuilt' : Built built o' := by
    cases o' with
    | none => trivial
    | some i =>
      obtain ⟨thread, hi⟩ := huse i rfl
      exact (hinv.storage thread i hi).1
  obtain rfl := ((hinv.heapInv hbuilt').system id').eq_of_lists hlists
  by_contra hne
  have hplace : (o', id') ≠ x.place := fun e => hne ⟨congrArg Prod.fst e, congrArg Prod.snd e⟩
  exact hinv.family.apart (o', id') x.place hbuilt' hbuilt hplace x.ptr ⟨page', hpage, onPage_iff.mp hon⟩
    ⟨a, ha, hlo, hhi⟩

end
def cachedHeapParams : CreationParams :=
  { central := onePageEach
    localHeap := onePageEach
    arenaCapacity := 65536
    arenaPageAlignment := 4096
    metadataBufferSize := 4096 }

def cachedHeapAnswers : CreationAnswers where
  arena := true
  metadata := true
  threadLocalStorage := true
  centralHeap := ⟨fun _ => 1048576, fun _ => true⟩
  cachedHeaps i := ⟨fun _ => if i = 0 then 2097152 else 0, fun _ => true⟩

def createCachedHeap : Option (Bool × ScalableAllocator × Memory) :=
  create oneThreadAllocator cachedHeapParams cachedHeapAnswers (setThreadLocalHeapCacheCount 1 {})
    ⟨fun _ => 0, fun _ => {}, [], []⟩

def afterActions (actions : List AllocatorAction) : Option AllocatorSystem :=
  createCachedHeap.bind fun r => AllocatorSystem.performAll oneThreadAllocator actions ⟨r.2.1, r.2.2, []⟩

def refusedHeap : HeapAnswers := ⟨fun _ => 0, fun _ => false⟩

theorem freshHeaps_cached : FreshHeaps cachedHeapParams cachedHeapAnswers := by
  have hcentral : centralBuffer cachedHeapParams cachedHeapAnswers = 1048576 := rfl
  have hbytes : centralBytes cachedHeapParams = 40960 := by decide +kernel
  have hlength : localBytes cachedHeapParams = 40960 := by decide +kernel
  refine ⟨fun _ => ?_, fun i hi => ?_⟩
  · rw [hcentral, hbytes]
    exact ⟨by decide, by decide, by decide, fun _ hf => hf.elim⟩
  · obtain rfl : i = 0 := by
      by_contra hne
      exact hi (if_neg hne)
    have hbuffer : cachedBuffer cachedHeapParams cachedHeapAnswers 0 = 2097152 := rfl
    rw [hbuffer, hlength]
    refine ⟨by decide, by decide, by decide, ?_⟩
    rintro c (hc | ⟨j, hj, _⟩)
    · rw [hcentral, hbytes] at hc
      omega
    · exact absurd hj (Nat.not_lt_zero j)

theorem soundCreation_cached : SoundCreation cachedHeapParams cachedHeapAnswers := by
  refine ⟨⟨12, rfl⟩, ⟨12, rfl⟩, by decide, by decide, ⟨fun _ => by decide +kernel, fun i hi => ?_⟩⟩
  obtain rfl : i = 0 := by
    by_contra hne
    exact hi (if_neg hne)
  decide +kernel

inductive AsksNothing : AllocatorAction → Prop
  | getThreadLocalHeap (thread : Nat) : AsksNothing (.getThreadLocalHeap thread refusedHeap)
  | allocateLocal (thread size : Nat) : AsksNothing (.allocateLocal thread size refusingArena)
  | allocateCentral (size : Nat) : AsksNothing (.allocateCentral size refusingArena)

section
variable {A : AllocatorType} {sys sys' : AllocatorSystem} {action : AllocatorAction}
  {condition : AllocatorSystem → AllocatorAction → Prop} {actions : List AllocatorAction}

theorem AsksNothing.mayDo (h : AsksNothing action) : sys.MayDo action := by
  cases h with
  | getThreadLocalHeap thread => exact fun n hn => absurd rfl hn
  | allocateLocal thread size => exact trivial
  | allocateCentral size => exact ⟨fun n hn => absurd rfl hn, fun n hn => absurd rfl hn⟩

theorem AsksNothing.keepsIntervals (h : AsksNothing action) : sys.KeepsIntervals A action := by
  cases h with
  | getThreadLocalHeap thread => exact fun n hn => absurd rfl hn
  | allocateLocal thread size => exact trivial
  | allocateCentral size => exact ⟨refusingArena_grantedInFull, fun n hn => absurd rfl hn⟩

theorem AllocatorRun.performAll {params : CreationParams} {answers : CreationAnswers}
    (hc : ∀ sys action, AsksNothing action → condition sys action)
    (h : AllocatorRun A params answers condition sys) (ha : ∀ action ∈ actions, AsksNothing action)
    (hp : sys.performAll A actions = some sys') : AllocatorRun A params answers condition sys' := by
  induction actions generalizing sys with
  | nil =>
    cases hp
    exact h
  | cons action rest ih =>
    obtain ⟨sys₁, h₁, h₂⟩ := Option.bind_eq_some_iff.mp hp
    have hfirst := ha action List.mem_cons_self
    exact ih (h.step hfirst.mayDo (hc sys action hfirst) h₁) (fun b hb => ha b (List.mem_cons_of_mem _ hb)) h₂

theorem run_afterActions (hc : ∀ sys action, AsksNothing action → condition sys action)
    (ha : ∀ action ∈ actions, AsksNothing action) (h : afterActions actions = some sys) :
    AllocatorRun oneThreadAllocator cachedHeapParams cachedHeapAnswers condition sys := by
  have hok : createCachedHeap.map Prod.fst = some true := by decide +kernel
  obtain ⟨⟨ok, a, mem⟩, hcreate, rfl⟩ := Option.map_eq_some_iff.mp hok
  rw [afterActions, hcreate] at h
  exact (AllocatorRun.create freshHeaps_cached hcreate).performAll hc ha h

theorem keepsIntervals_afterActions (ha : ∀ action ∈ actions, AsksNothing action)
    (h : afterActions actions = some sys) :
    AllocatorRun oneThreadAllocator cachedHeapParams cachedHeapAnswers
      (AllocatorSystem.KeepsIntervals oneThreadAllocator) sys :=
  run_afterActions (fun _ _ hq => hq.keepsIntervals) ha h

end

def twoRequests : List AllocatorAction :=
  [.getThreadLocalHeap 7 refusedHeap, .allocateLocal 7 16 refusingArena, .allocateCentral 16 refusingArena]

theorem asksNothing_twoRequests : ∀ action ∈ twoRequests, AsksNothing action := by
  simp only [twoRequests, List.forall_mem_cons]
  exact ⟨.getThreadLocalHeap 7, .allocateLocal 7 16, .allocateCentral 16, by simp⟩

theorem live_twoRequests : (afterActions twoRequests).map AllocatorSystem.live =
    some [⟨1052656, 16, none, .small 0⟩, ⟨2101232, 16, some 0, .small 0⟩] := by decide +kernel

theorem deallocate_reaches_page_of_two : ∃ sys, (oneThreadAllocator.localHeap.concurrency = .threadLocal ∧
      SoundCreation cachedHeapParams cachedHeapAnswers ∧
      AllocatorRun oneThreadAllocator cachedHeapParams cachedHeapAnswers
        (AllocatorSystem.KeepsIntervals oneThreadAllocator) sys) ∧
    sys.live = [⟨1052656, 16, none, .small 0⟩, ⟨2101232, 16, some 0, .small 0⟩] ∧
    sys.Routed oneThreadAllocator 1052656 ∧ sys.Routed oneThreadAllocator 2101232 := by
  obtain ⟨sys, h, hlive⟩ := Option.map_eq_some_iff.mp live_twoRequests
  have hrun := keepsIntervals_afterActions asksNothing_twoRequests h
  have hall := deallocate_reaches_page rfl soundCreation_cached hrun
  rw [hlive] at hall
  exact ⟨sys, ⟨rfl, soundCreation_cached, hrun⟩, hlive, hall _ List.mem_cons_self,
    hall _ (List.mem_cons_of_mem _ List.mem_cons_self)⟩

/-- The page of the central heap is emptied and released, and the thread ends: its page moves to
the central heap. -/
def threadEnds : List AllocatorAction := [.deallocate ⟨1052656, 16, none, .small 0⟩, .exit 7]

def afterThreadEnds : Option AllocatorSystem :=
  (afterActions twoRequests).bind (AllocatorSystem.performAll oneThreadAllocator threadEnds)

theorem run_threadEnds {sys : AllocatorSystem} (h : afterThreadEnds = some sys) :
    AllocatorRun oneThreadAllocator cachedHeapParams cachedHeapAnswers (fun _ _ => True) sys := by
  obtain ⟨sys₁, h₁, h₂⟩ := Option.bind_eq_some_iff.mp h
  obtain ⟨sys₂, h₂, h₃⟩ := Option.bind_eq_some_iff.mp h₂
  obtain ⟨sys₃, h₃, h₄⟩ := Option.bind_eq_some_iff.mp h₃
  cases h₄
  have hlive := live_twoRequests
  rw [h₁, Option.map_some, Option.some.injEq] at hlive
  have hrun : AllocatorRun oneThreadAllocator cachedHeapParams cachedHeapAnswers (fun _ _ => True) sys₁ :=
    run_afterActions (fun _ _ _ => trivial) asksNothing_twoRequests h₁
  have hgiven : sys₁.MayDo (.deallocate ⟨1052656, 16, none, .small 0⟩) := by
    show _ ∈ sys₁.live
    rw [hlive]
    exact List.mem_cons_self
  have hends : sys₂.MayDo (.exit 7) := trivial
  exact (hrun.step hgiven trivial h₂).step hends trivial h₃

/-- A thread ends while a client still holds something from its heap. The page is on the list of
the central heap now, but the interval of the old heap still takes in the pointer: that heap, which
lists nothing, drops it. -/
theorem deallocate_drops_pointer : ∃ sys,
    AllocatorRun oneThreadAllocator cachedHeapParams cachedHeapAnswers (fun _ _ => True) sys ∧
    (⟨2101232, 16, some 0, .small 0⟩ : Held) ∈ sys.live ∧ sys.Lists none (.small 0) [2097152] ∧
    onPage (sys.allocator.centralHeap.segment (.small 0)).logicalPageSize 2097152 2101232 = true ∧
    deallocate oneThreadAllocator 2101232 sys.allocator sys.memory = some (sys.allocator, sys.memory) := by
  have hstate : afterThreadEnds.map (fun sys =>
      ((sys.live, (sys.allocator.centralHeap.bins 0).head, sys.memory.getNext 2097152),
        (sys.allocator.centralHeap.bins 0).logicalPageSize, sys.allocator.owner 2101232,
        ((sys.allocator.localHeaps 0).bins 0).head,
        SimpleHeapPow2.pointerTarget oneThreadAllocator.localHeap 2101232 (sys.allocator.localHeaps 0)
          sys.memory)) =
      some (([⟨2101232, 16, some 0, .small 0⟩], 2097152, 0), 4096, some 0, 0, some (.small 0)) := by
    decide +kernel
  obtain ⟨sys, h, hstate⟩ := Option.map_eq_some_iff.mp hstate
  simp only [Prod.mk.injEq] at hstate
  obtain ⟨⟨hlive, hlist⟩, hsize, howner, hhead, htarget⟩ := hstate
  refine ⟨sys, run_threadEnds h, ?_, ⟨hlist, by decide⟩, ?_, ?_⟩
  · rw [hlive]
    exact List.mem_singleton_self _
  · have hsize : (sys.allocator.centralHeap.segment (.small 0)).logicalPageSize = 4096 := hsize
    rw [hsize]
    decide
  · have hdropped : Segment.deallocate (oneThreadAllocator.localHeap.segmentType (.small 0)) 2101232
        ((sys.allocator.localHeaps 0).segment (.small 0)) sys.memory =
        some ((sys.allocator.localHeaps 0).segment (.small 0), sys.memory) := if_pos hhead
    have hself : sys.allocator.setLocalHeap 0 (sys.allocator.localHeaps 0) = sys.allocator :=
      setHeapAt_self (o := some 0)
    rw [deallocate, if_neg (by decide), howner]
    dsimp only
    rw [deallocate_of_target htarget hdropped, SimpleHeapPow2.setSegment_segment, Option.map_some, hself]

end Metamalloc.Allocator
