import Metamalloc.Allocator.HeapSlots
import Metamalloc.Allocator.ManagerRefinement

/-! `deallocate` in the single steps the code makes. The look at the pages of the big bin and the last step are each
under the lock of a segment, but no lock is held from one step to the next: while a thread looks for the heap and the
segment of its pointer, the others go on. -/
namespace Metamalloc.Allocator
open Library.LinkedList Library.Refinement Library.MemoryManager Pages Segments Heaps ScalableAllocator

inductive DeallocateStage where
  | entry
  /-- The loop has come to the local heap at a place. -/
  | search (i : Nat)
  /-- The heap is known. -/
  | heap (owner : Option Nat)
  /-- The big bin does not have the pointer. -/
  | sizeClass (owner : Option Nat)
  /-- The segment is known. -/
  | segment (owner : Option Nat) (id : SegmentId)
  /-- The segment has pages. -/
  | deliver (owner : Option Nat) (id : SegmentId)
  deriving DecidableEq

/-- `deallocate` of a segment behind its look at `m_head`. -/
def deallocateListed (T : SegmentType) (ptr : Nat) (s : Segment) (mem : Memory) : Option (Segment × Memory) :=
  if T.concurrency = .threadLocal then some (Segment.pushDeallocationQueue ptr s, mem)
  else Segment.deallocateInternal T ptr s mem

/-- The next step of a call, and the stage behind it unless the call returns. -/
def deallocateStep (A : AllocatorType) (ptr : Nat) (a : ScalableAllocator) (mem : Memory) :
    DeallocateStage → Option (Option DeallocateStage × ScalableAllocator × Memory)
  | .entry => some (if ptr = 0 then none else some (.search 0), a, mem)
  | .search i => some (some (if i < a.activeLocalHeapCount then
      if (a.localHeaps i).ownsPointer ptr then .heap (some i) else .search (i + 1) else .heap none), a, mem)
  | .heap owner => (Segment.ownsPointer (A.heapType owner).segmentBigObject ptr (a.heapAt owner).bigObjectBin mem).map
      fun owns => (some (if owns then .segment owner .big else .sizeClass owner), a, mem)
  | .sizeClass owner => some (some (.segment owner (.small (getPow2BinIndexFromSize
      (Segment.getSizeClassFromAddress ptr (a.heapAt owner).smallObjectLogicalPageSize mem)))), a, mem)
  | .segment owner id =>
    some (if ((a.heapAt owner).segment id).head = 0 then none else some (.deliver owner id), a, mem)
  | .deliver owner id =>
    (deallocateListed ((A.heapType owner).segmentType id) ptr ((a.heapAt owner).segment id) mem).map fun (s, mem) =>
      (none, a.setHeapAt owner ((a.heapAt owner).setSegment id s), mem)

/-- A call that has not returned yet, and the number of steps it has made. -/
structure DeallocateCall where
  target : Held
  stage : DeallocateStage := .entry
  steps : Nat := 0
  deriving DecidableEq

/-- The allocator with the calls of `deallocate` of any threads. -/
structure SteppedSystem (ι : Type) where
  system : AllocatorSystem
  calls : ι → Option DeallocateCall

def DeallocateCall.after (call : DeallocateCall) (next : Option DeallocateStage) : Option DeallocateCall :=
  next.map fun stage => ⟨call.target, stage, call.steps + 1⟩

def AllocatorSystem.afterStep (sys : AllocatorSystem) (x : Held) (next : Option DeallocateStage)
    (a : ScalableAllocator) (mem : Memory) : AllocatorSystem :=
  ⟨a, mem, if next = none then sys.live.erase x else sys.live⟩

section
variable (ι : Type) [DecidableEq ι] (A : AllocatorType) (params : CreationParams) (creation : CreationAnswers)

inductive SteppedSystem.Moves (c : SteppedSystem ι) : Option Event → SteppedSystem ι → Prop
  /-- A step in which nobody gives anything back. -/
  | other {action : AllocatorAction} {sys' : AllocatorSystem} (hother : ∀ x, action ≠ .deallocate x)
      (ha : c.system.MayDo action) (hc : c.system.KeepsIntervals A action)
      (hp : c.system.perform A action = some sys') : Moves c (c.system.eventOf sys' action) ⟨sys', c.calls⟩
  | load {x : Held} {address : Nat} (hx : x ∈ c.system.live) (hlo : x.ptr ≤ address) (hhi : address < x.ptr + x.size) :
      Moves c (some (.loaded address (c.system.memory.bytes address))) c
  /-- A client gives back what it holds, once. -/
  | call {i : ι} {x : Held} (hidle : c.calls i = none) (hx : x ∈ c.system.live)
      (honce : ∀ j call, c.calls j = some call → call.target ≠ x) :
      Moves c none { c with calls := Function.update c.calls i (some { target := x }) }
  | advance {i : ι} {call : DeallocateCall} {next : Option DeallocateStage} {a : ScalableAllocator} {mem : Memory}
      (hcall : c.calls i = some call)
      (hp : deallocateStep A call.target.ptr c.system.allocator c.system.memory call.stage = some (next, a, mem)) :
      Moves c (if next = none then some (.released call.target.block) else none)
        ⟨c.system.afterStep call.target next a mem, Function.update c.calls i (call.after next)⟩

def steppedClients : TransitionSystem (SteppedSystem ι) Event where
  start := fun c => (AllocatorSystem.clients A params creation).start c.system ∧ ∀ i, c.calls i = none
  step := SteppedSystem.Moves ι A

end

section
variable {A : AllocatorType} {sys sys' : AllocatorSystem} {built : Nat → Prop} {g : Option Nat × SegmentId → Ghost}
  {x y : Held} {action : AllocatorAction}

namespace HeapsInv

theorem ownsPointer_eq (h : HeapsInv A sys built g) (hx : x ∈ sys.live) (i : Nat) :
    (sys.allocator.localHeaps i).ownsPointer x.ptr = decide (x.owner = some i) := by
  obtain ⟨a, ha, -, hlo, hhi⟩ := h.page hx
  have hregion : region (sys.allocator.segmentAt x.place).logicalPageSize (g x.place).pages x.ptr := ⟨a, ha, hlo, hhi⟩
  have hbuilt := (h.held x hx).1
  by_cases howner : x.owner = some i
  · rw [howner] at hbuilt
    rw [h.inside x.place x.ptr i howner hbuilt hregion, decide_eq_true howner]
  · rw [(h.outside x.place x.ptr hbuilt hregion).2 i howner, decide_eq_false howner]

theorem ownsPointer_big (h : HeapsInv A sys built g) (hx : x ∈ sys.live) :
    Segment.ownsPointer (A.heapType x.owner).segmentBigObject x.ptr (sys.allocator.heapAt x.owner).bigObjectBin
      sys.memory = some (decide (x.segment = .big)) := by
  obtain ⟨owns, howns, htarget⟩ := Option.map_eq_some_iff.mp (h.pointerTarget_eq hx)
  rw [howns, ← htarget]
  cases owns <;> simp

theorem sizeClass_eq (h : HeapsInv A sys built g) (hx : x ∈ sys.live) (hsmall : x.segment ≠ .big) :
    .small (getPow2BinIndexFromSize (Segment.getSizeClassFromAddress x.ptr
      (sys.allocator.heapAt x.owner).smallObjectLogicalPageSize sys.memory)) = x.segment := by
  obtain ⟨owns, howns, htarget⟩ := Option.map_eq_some_iff.mp (h.pointerTarget_eq hx)
  cases owns with
  | true => exact absurd htarget.symm hsmall
  | false => exact htarget

theorem head_ne_zero (h : HeapsInv A sys built g) (hx : x ∈ sys.live) :
    ((sys.allocator.heapAt x.owner).segment x.segment).head ≠ 0 := by
  obtain ⟨a, ha, -, -, -⟩ := h.page hx
  obtain ⟨hpath, h0⟩ := h.lists (h.held x hx).1 x.segment
  intro hhead
  rw [hhead] at hpath
  have ha : a ∈ (g (x.owner, x.segment)).pages := ha
  cases hpages : (g (x.owner, x.segment)).pages with
  | nil =>
    rw [hpages] at ha
    cases ha
  | cons b rest =>
    rw [hpages] at hpath h0
    exact h0 (hpath.1 ▸ List.mem_cons_self)

theorem deliver_eq (h : HeapsInv A sys built g) (hx : x ∈ sys.live) :
    ∃ a mem, deallocateStep A x.ptr sys.allocator sys.memory (.deliver x.owner x.segment) = some (none, a, mem) ∧
      sys.perform A (.deallocate x) = some (sys.afterStep x none a mem) := by
  obtain ⟨s', mem', he⟩ : ∃ s' mem', Segment.deallocate (A.segmentType x.place) x.ptr
      (sys.allocator.segmentAt x.place) sys.memory = some (s', mem') := by
    obtain ⟨a, ha, hxa, hlo, hhi⟩ := h.page hx
    have hbuilt := (h.held x hx).1
    by_cases hpolicy : (A.segmentType x.place).concurrency = .threadLocal
    · obtain ⟨_, he, -⟩ := h.family.deallocate_local hbuilt hpolicy (mem_liveAt hx)
      exact ⟨_, _, he⟩
    · obtain ⟨s', mem', _, _, he, -⟩ := h.family.deallocate_direct hbuilt hpolicy (mem_liveAt hx) hxa
        ((h.family.system x.place hbuilt).segment.frees_self hxa)
      exact ⟨s', mem', he⟩
  have hlisted : deallocateListed ((A.heapType x.owner).segmentType x.segment) x.ptr
      ((sys.allocator.heapAt x.owner).segment x.segment) sys.memory = some (s', mem') :=
    (if_neg (h.head_ne_zero hx)).symm.trans he
  refine ⟨sys.allocator.setSegmentAt x.place s', mem', ?_, ?_⟩
  · rw [deallocateStep, hlisted]
    rfl
  · rw [AllocatorSystem.perform, h.deallocate_eq hx he]
    rfl

end HeapsInv

/-- A call that nobody disturbs stands there at some time. -/
def OnRoute (x : Held) (active : Nat) : DeallocateStage → Prop
  | .entry => True
  | .search i => i ≤ active ∧ ∀ o, x.owner = some o → i ≤ o
  | .heap owner => owner = x.owner
  | .sizeClass owner => owner = x.owner ∧ x.segment ≠ .big
  | .segment owner id | .deliver owner id => owner = x.owner ∧ id = x.segment

def DeallocateStage.remaining (places : Nat) : DeallocateStage → Nat
  | .entry => places + 5
  | .search i => places - i + 4
  | .heap _ => 4
  | .sizeClass _ => 3
  | .segment _ _ => 2
  | .deliver _ _ => 1

/-- The next step brings the call further on its route, or hands the block to the segment it came from. -/
def Proceeds (A : AllocatorType) (places : Nat) (sys : AllocatorSystem) (x : Held) (stage : DeallocateStage) : Prop :=
  ∃ next a mem, deallocateStep A x.ptr sys.allocator sys.memory stage = some (next, a, mem) ∧
    ((∃ stage', next = some stage' ∧ a = sys.allocator ∧ mem = sys.memory ∧
        OnRoute x sys.allocator.activeLocalHeapCount stage' ∧ stage'.remaining places < stage.remaining places) ∨
      next = none ∧ stage = .deliver x.owner x.segment ∧
        sys.perform A (.deallocate x) = some (sys.afterStep x none a mem))

theorem OnRoute.mono {active active' : Nat} {stage : DeallocateStage} (h : OnRoute x active stage)
    (hle : active ≤ active') : OnRoute x active' stage := by
  cases stage with
  | search i => exact ⟨h.1.trans hle, h.2⟩
  | _ => exact h

/-- Whatever has happened since the last step, the call goes on. -/
theorem HeapsInv.proceeds {places : Nat} {stage : DeallocateStage} (h : HeapsInv A sys built g)
    (hx : x ∈ sys.live) (hplaces : sys.allocator.activeLocalHeapCount < places)
    (hroute : OnRoute x sys.allocator.activeLocalHeapCount stage) : Proceeds A places sys x stage := by
  have hstay : ∀ stage', deallocateStep A x.ptr sys.allocator sys.memory stage =
        some (some stage', sys.allocator, sys.memory) → OnRoute x sys.allocator.activeLocalHeapCount stage' →
      stage'.remaining places < stage.remaining places → Proceeds A places sys x stage :=
    fun stage' he hroute' hlt => ⟨_, _, _, he, .inl ⟨stage', rfl, rfl, rfl, hroute', hlt⟩⟩
  cases stage with
  | entry =>
    refine hstay (.search 0) ?_ ⟨Nat.zero_le _, fun _ _ => Nat.zero_le _⟩ ?_
    · rw [deallocateStep, if_neg (h.ptr_ne_zero hx)]
    · simp only [DeallocateStage.remaining]
      omega
  | search i =>
    obtain ⟨hi, hle⟩ := hroute
    by_cases hlt : i < sys.allocator.activeLocalHeapCount
    · by_cases howner : x.owner = some i
      · refine hstay (.heap (some i)) ?_ howner.symm ?_
        · rw [deallocateStep, if_pos hlt, h.ownsPointer_eq hx, decide_eq_true howner]
          rfl
        · simp only [DeallocateStage.remaining]
          omega
      · refine hstay (.search (i + 1)) ?_ ⟨hlt, fun o ho => ?_⟩ ?_
        · rw [deallocateStep, if_pos hlt, h.ownsPointer_eq hx, decide_eq_false howner]
          rfl
        · refine Nat.lt_of_le_of_ne (hle o ho) ?_
          rintro rfl
          exact howner ho
        · simp only [DeallocateStage.remaining]
          omega
    · refine hstay (.heap none) ?_ ?_ ?_
      · rw [deallocateStep, if_neg hlt]
      · cases howner : x.owner with
        | none => exact howner.symm
        | some o => exact absurd ((h.held x hx).2 o howner) fun hactive => hlt ((hle o howner).trans_lt hactive)
      · simp only [DeallocateStage.remaining]
        omega
  | heap owner =>
    obtain rfl : owner = x.owner := hroute
    by_cases hbig : x.segment = .big
    · refine hstay (.segment x.owner .big) ?_ ⟨rfl, hbig.symm⟩ (by simp [DeallocateStage.remaining])
      rw [deallocateStep, h.ownsPointer_big hx, decide_eq_true hbig]
      rfl
    · refine hstay (.sizeClass x.owner) ?_ ⟨rfl, hbig⟩ (by simp [DeallocateStage.remaining])
      rw [deallocateStep, h.ownsPointer_big hx, decide_eq_false hbig]
      rfl
  | sizeClass owner =>
    obtain ⟨rfl, hsmall⟩ := hroute
    refine hstay (.segment x.owner x.segment) ?_ ⟨rfl, rfl⟩ (by simp [DeallocateStage.remaining])
    rw [deallocateStep, h.sizeClass_eq hx hsmall]
  | segment owner id =>
    obtain ⟨rfl, rfl⟩ := hroute
    refine hstay (.deliver x.owner x.segment) ?_ ⟨rfl, rfl⟩ (by simp [DeallocateStage.remaining])
    rw [deallocateStep, if_neg (h.head_ne_zero hx)]
  | deliver owner id =>
    obtain ⟨rfl, rfl⟩ := hroute
    obtain ⟨a, mem, he, hperform⟩ := h.deliver_eq hx
    exact ⟨none, a, mem, he, .inr ⟨rfl, rfl, hperform⟩⟩

theorem live_perform (hother : ∀ x, action ≠ .deallocate x) (hp : sys.perform A action = some sys')
    (hx : x ∈ sys.live) : x ∈ sys'.live := by
  have hgranted : ∀ {o size arena}, sys.allocateOn A o size arena = some sys' → x ∈ sys'.live := by
    intro o size arena he
    obtain ⟨r, -, rfl⟩ := Option.map_eq_some_iff.mp he
    dsimp only
    split
    · exact hx
    · exact List.mem_cons_of_mem _ hx
  cases action with
  | getThreadLocalHeap thread answers =>
    obtain ⟨r, -, rfl⟩ := Option.map_eq_some_iff.mp hp
    exact hx
  | allocateLocal thread size arena =>
    obtain ⟨i, -, he⟩ := Option.bind_eq_some_iff.mp hp
    exact hgranted he
  | allocateCentral size arena => exact hgranted hp
  | deallocate y => exact absurd rfl (hother y)
  | recycle owner =>
    obtain ⟨r, -, rfl⟩ := Option.map_eq_some_iff.mp hp
    exact hx
  | exit thread =>
    obtain ⟨r, -, rfl⟩ := Option.map_eq_some_iff.mp hp
    exact hx
  | store address value =>
    cases hp
    exact hx

/-- There is room for so many local heaps, and one place is never taken. -/
structure HasPlaces (places : Nat) (a : ScalableAllocator) : Prop where
  max : a.maxThreadLocalHeapCount = places
  active : a.activeLocalHeapCount < places

/-- Places are taken one by one and never given back. -/
structure TakesPlaces (places : Nat) (a a' : ScalableAllocator) : Prop extends HasPlaces places a' where
  grows : a.activeLocalHeapCount ≤ a'.activeLocalHeapCount

theorem HasPlaces.of_sameSlots {places : Nat} {a a' : ScalableAllocator} (h : HasPlaces places a)
    (hsame : SameSlots a a') : TakesPlaces places a a' :=
  ⟨⟨hsame.max.trans h.max, hsame.active ▸ h.active⟩, hsame.active.ge⟩

theorem sameSlots_setHeapAt {a : ScalableAllocator} {o : Option Nat} {heap : SimpleHeapPow2} :
    SameSlots a (a.setHeapAt o heap) := by
  cases o <;> exact ⟨rfl, rfl, rfl, rfl⟩

theorem HasPlaces.perform {places : Nat} (h : HasPlaces places sys.allocator) (hp : sys.perform A action = some sys') :
    TakesPlaces places sys.allocator sys'.allocator := by
  have hgranted : ∀ {o size arena}, sys.allocateOn A o size arena = some sys' →
      TakesPlaces places sys.allocator sys'.allocator := by
    intro o size arena he
    obtain ⟨r, -, rfl⟩ := Option.map_eq_some_iff.mp he
    exact h.of_sameSlots sameSlots_setHeapAt
  cases action with
  | getThreadLocalHeap thread answers =>
    obtain ⟨⟨slot, a', mem'⟩, hget, rfl⟩ := Option.map_eq_some_iff.mp hp
    rcases getThreadLocalHeap_cases hget with ⟨-, rfl, -, -⟩ | ⟨-, hroom, a₁, rfl, ⟨-, hcreate⟩ | ⟨-, -, rfl, -⟩⟩
    · exact h.of_sameSlots (.refl _)
    · have hsame := sameSlots_createLocalHeap hcreate
      rw [h.max, ← hsame.active] at hroom
      exact ⟨⟨hsame.max.trans h.max, hroom⟩, hsame.active ▸ Nat.le_succ _⟩
    · rw [h.max] at hroom
      exact ⟨⟨h.max, hroom⟩, Nat.le_succ _⟩
  | allocateLocal thread size arena =>
    obtain ⟨i, -, he⟩ := Option.bind_eq_some_iff.mp hp
    exact hgranted he
  | allocateCentral size arena => exact hgranted hp
  | deallocate y =>
    obtain ⟨⟨a', mem'⟩, he, rfl⟩ := Option.map_eq_some_iff.mp hp
    rw [ScalableAllocator.deallocate] at he
    split at he
    · cases he
      exact h.of_sameSlots (.refl _)
    · split at he
      · obtain ⟨r, -, heq⟩ := Option.map_eq_some_iff.mp he
        cases heq
        exact h.of_sameSlots (sameSlots_setLocalHeap ..)
      · obtain ⟨r, -, heq⟩ := Option.map_eq_some_iff.mp he
        cases heq
        exact h.of_sameSlots ⟨rfl, rfl, rfl, rfl⟩
  | recycle owner =>
    obtain ⟨r, -, rfl⟩ := Option.map_eq_some_iff.mp hp
    exact h.of_sameSlots sameSlots_setHeapAt
  | exit thread =>
    obtain ⟨⟨a', mem'⟩, he, rfl⟩ := Option.map_eq_some_iff.mp hp
    rw [threadSpecificDestructor] at he
    split at he
    · cases he
      exact h.of_sameSlots (.refl _)
    · obtain ⟨r, -, heq⟩ := Option.map_eq_some_iff.mp he
      cases heq
      exact ⟨⟨h.max, h.active⟩, le_rfl⟩
  | store address value =>
    cases hp
    exact h.of_sameSlots (.refl _)

end

/-- Every call is on its route, and no block is given back twice. -/
structure SteppedSystem.Inv {ι : Type} (A : AllocatorType) (params : CreationParams) (creation : CreationAnswers)
    (places : Nat) (c : SteppedSystem ι) : Prop where
  run : AllocatorRun A params creation (AllocatorSystem.KeepsIntervals A) c.system
  room : HasPlaces places c.system.allocator
  pending : ∀ i call, c.calls i = some call → call.target ∈ c.system.live ∧
    OnRoute call.target c.system.allocator.activeLocalHeapCount call.stage ∧
    call.steps + call.stage.remaining places ≤ places + 5
  once : ∀ i j call call', c.calls i = some call → c.calls j = some call' → call.target = call'.target → i = j

section
variable {ι : Type} [DecidableEq ι] {A : AllocatorType} {params : CreationParams} {creation : CreationAnswers}
  {places : Nat} {c c' : SteppedSystem ι} {e : Option Event}

theorem update_cases {calls : ι → Option DeallocateCall} {i j : ι} {changed : Option DeallocateCall}
    {call : DeallocateCall} (h : Function.update calls i changed j = some call) :
    j = i ∧ changed = some call ∨ j ≠ i ∧ calls j = some call := by
  by_cases hji : j = i
  · subst hji
    rw [Function.update_self] at h
    exact .inl ⟨rfl, h⟩
  · rw [Function.update_of_ne hji] at h
    exact .inr ⟨hji, h⟩

namespace SteppedSystem.Inv

theorem start (h : (steppedClients ι A params creation).start c) :
    Inv A params creation (params.metadataBufferSize / A.localHeapSize) c := by
  obtain ⟨⟨count, a, mem, mem', hfresh, hcreate, hsystem⟩, hidle⟩ := h
  obtain ⟨heap, mem₁, cached, -, hplaces, -, hcached⟩ := create_succeeded hcreate
  have hsame := sameSlots_createCachedHeaps hcached
  refine ⟨hsystem ▸ .create hfresh hcreate, hsystem ▸ ⟨hsame.max, ?_⟩, fun i call hcall => ?_,
    fun i j call call' hcall => ?_⟩
  · exact hsame.active.trans_lt (Nat.pos_of_ne_zero hplaces)
  · rw [hidle i] at hcall
    cases hcall
  · rw [hidle i] at hcall
    cases hcall

omit [DecidableEq ι] in
theorem other {action : AllocatorAction} {sys' : AllocatorSystem} (h : Inv A params creation places c)
    (hother : ∀ x, action ≠ .deallocate x) (ha : c.system.MayDo action) (hc : c.system.KeepsIntervals A action)
    (hp : c.system.perform A action = some sys') : Inv A params creation places ⟨sys', c.calls⟩ := by
  have hroom := h.room.perform hp
  refine ⟨h.run.step ha hc hp, hroom.toHasPlaces, fun i call hcall => ?_, h.once⟩
  obtain ⟨hlive, hroute, hsteps⟩ := h.pending i call hcall
  exact ⟨live_perform hother hp hlive, hroute.mono hroom.grows, hsteps⟩

theorem call {i : ι} {x : Held} (h : Inv A params creation places c) (hx : x ∈ c.system.live)
    (honce : ∀ j call, c.calls j = some call → call.target ≠ x) :
    Inv A params creation places { c with calls := Function.update c.calls i (some { target := x }) } := by
  refine ⟨h.run, h.room, fun j call hj => ?_, fun j k call call' hj hk heq => ?_⟩
  · rcases update_cases hj with ⟨rfl, heq⟩ | ⟨-, hj⟩
    · cases heq
      exact ⟨hx, trivial, Nat.le_of_eq (Nat.zero_add _)⟩
    · exact h.pending j call hj
  · rcases update_cases hj with ⟨rfl, hnew⟩ | ⟨-, hold⟩ <;> rcases update_cases hk with ⟨rfl, hnew'⟩ | ⟨-, hold'⟩
    · rfl
    · cases hnew
      exact absurd heq.symm (honce k call' hold')
    · cases hnew'
      exact absurd heq (honce j call hold)
    · exact h.once j k call call' hold hold' heq

/-- A call goes on to its next stage. -/
theorem proceed {i : ι} {call : DeallocateCall} {stage : DeallocateStage} (h : Inv A params creation places c)
    (hcall : c.calls i = some call)
    (hroute : OnRoute call.target c.system.allocator.activeLocalHeapCount stage)
    (hlt : stage.remaining places < call.stage.remaining places) :
    Inv A params creation places
      { c with calls := Function.update c.calls i (some ⟨call.target, stage, call.steps + 1⟩) } := by
  have htarget : ∀ {j call'}, Function.update c.calls i (some ⟨call.target, stage, call.steps + 1⟩) j = some call' →
      ∃ call'', c.calls j = some call'' ∧ call''.target = call'.target := by
    intro j call' hj
    rcases update_cases hj with ⟨rfl, heq⟩ | ⟨-, hj⟩
    · cases heq
      exact ⟨call, hcall, rfl⟩
    · exact ⟨call', hj, rfl⟩
  refine ⟨h.run, h.room, fun j call' hj => ?_, fun j k call₁ call₂ hj hk heq => ?_⟩
  · rcases update_cases hj with ⟨rfl, heq⟩ | ⟨-, hj⟩
    · cases heq
      obtain ⟨hlive, -, hsteps⟩ := h.pending j call hcall
      refine ⟨hlive, hroute, ?_⟩
      dsimp only
      omega
    · exact h.pending j call' hj
  · obtain ⟨_, hj', heq₁⟩ := htarget hj
    obtain ⟨_, hk', heq₂⟩ := htarget hk
    exact h.once j k _ _ hj' hk' (heq₁.trans (heq.trans heq₂.symm))

/-- A call has handed its block over and returns. -/
theorem returns {i : ι} {call : DeallocateCall} {sys' : AllocatorSystem} (h : Inv A params creation places c)
    (hcall : c.calls i = some call) (hp : c.system.perform A (.deallocate call.target) = some sys')
    (hlive : sys'.live = c.system.live.erase call.target) :
    Inv A params creation places ⟨sys', Function.update c.calls i none⟩ := by
  have hroom := h.room.perform hp
  have hgiven : c.system.MayDo (.deallocate call.target) := (h.pending i call hcall).1
  have hrest : ∀ {j call'}, Function.update c.calls i none j = some call' → j ≠ i ∧ c.calls j = some call' := by
    intro j call' hj
    rcases update_cases hj with ⟨-, heq⟩ | hj
    · cases heq
    · exact hj
  refine ⟨h.run.step hgiven trivial hp, hroom.toHasPlaces, fun j call' hj => ?_,
    fun j k call₁ call₂ hj hk => h.once j k call₁ call₂ (hrest hj).2 (hrest hk).2⟩
  obtain ⟨hne, hj⟩ := hrest hj
  obtain ⟨hmem, hroute, hsteps⟩ := h.pending j call' hj
  refine ⟨?_, hroute.mono hroom.grows, hsteps⟩
  rw [hlive]
  exact (List.mem_erase_of_ne fun heq => hne (h.once j i call' call hj hcall heq)).mpr hmem

omit [DecidableEq ι] in
theorem proceeds {i : ι} {call : DeallocateCall} (h : Inv A params creation places c)
    (hpolicy : A.localHeap.concurrency = .threadLocal) (hsound : SoundCreation params creation)
    (hcall : c.calls i = some call) : Proceeds A places c.system call.target call.stage := by
  obtain ⟨built, g, hinv⟩ := h.run.inv hpolicy hsound
  obtain ⟨hlive, hroute, -⟩ := h.pending i call hcall
  exact hinv.toHeapsInv.proceeds hlive h.room.active hroute

/-- A step of a call changes nothing for the others, or is the deallocation as a whole. -/
theorem step (h : Inv A params creation places c) (hpolicy : A.localHeap.concurrency = .threadLocal)
    (hsound : SoundCreation params creation) (hstep : SteppedSystem.Moves ι A c e c') :
    Inv A params creation places c' ∧
      ((AllocatorSystem.clients A params creation).step c.system e c'.system ∨ e = none ∧ c'.system = c.system) := by
  cases hstep with
  | @other action sys' hother ha hc hp => exact ⟨h.other hother ha hc hp, .inl (.inl ⟨action, ha, hc, hp, rfl⟩)⟩
  | @load x address hx hlo hhi => exact ⟨h, .inl (.inr ⟨x, hx, address, hlo, hhi, rfl, rfl⟩)⟩
  | call hidle hx honce => exact ⟨h.call hx honce, .inr ⟨rfl, rfl⟩⟩
  | @advance i call next a mem hcall hp =>
    obtain ⟨next', a', mem', he, hcases⟩ := h.proceeds hpolicy hsound hcall
    cases hp.symm.trans he
    rcases hcases with ⟨stage, rfl, rfl, rfl, hroute, hlt⟩ | ⟨rfl, -, hperform⟩
    · exact ⟨h.proceed hcall hroute hlt, .inr ⟨rfl, rfl⟩⟩
    · exact ⟨h.returns hcall hperform rfl,
        .inl (.inl ⟨.deallocate call.target, (h.pending i call hcall).1, trivial, hperform, rfl⟩)⟩

end SteppedSystem.Inv

theorem stepped_simulate (hpolicy : A.localHeap.concurrency = .threadLocal) (hsound : SoundCreation params creation) :
    Simulation (steppedClients ι A params creation) (AllocatorSystem.clients A params creation) fun c sys =>
      c.system = sys ∧ c.Inv A params creation (params.metadataBufferSize / A.localHeapSize) := by
  refine ⟨fun c hstart => ⟨c.system, hstart.1, rfl, .start hstart⟩, ?_⟩
  rintro c _ e c' ⟨rfl, hinv⟩ hstep
  obtain ⟨hinv', hmove⟩ := hinv.step hpolicy hsound hstep
  exact ⟨c'.system, ⟨rfl, hinv'⟩, hmove⟩

/-- Whatever the other threads do between the steps of a call, the allocator shows what it shows when
`deallocate` is one step; and every call comes to its end after a bounded number of steps of its own. -/
theorem deallocation_linearizes {trace : List Event} (hpolicy : A.localHeap.concurrency = .threadLocal)
    (hsound : SoundCreation params creation) (h : Run (steppedClients ι A params creation) trace c) :
    Run (AllocatorSystem.clients A params creation) trace c.system ∧
      ∀ i call, c.calls i = some call → call.steps < params.metadataBufferSize / A.localHeapSize + 5 ∧
        Proceeds A (params.metadataBufferSize / A.localHeapSize) c.system call.target call.stage := by
  obtain ⟨sys, hrun, rfl, hinv⟩ := (stepped_simulate hpolicy hsound).run h
  refine ⟨hrun, fun i call hcall => ⟨?_, hinv.proceeds hpolicy hsound hcall⟩⟩
  have hsteps := (hinv.pending i call hcall).2.2
  have hpositive : ∀ {places}, 0 < call.stage.remaining places := by
    intro places
    cases call.stage <;> simp [DeallocateStage.remaining]
  exact Nat.lt_of_lt_of_le (Nat.lt_add_of_pos_right hpositive) hsteps

def advanceAll (A : AllocatorType) : List ι → SteppedSystem ι → Option (SteppedSystem ι)
  | [], c => some c
  | i :: rest, c => (c.calls i).bind fun call =>
    (deallocateStep A call.target.ptr c.system.allocator c.system.memory call.stage).bind fun r =>
      advanceAll A rest ⟨c.system.afterStep call.target r.1 r.2.1 r.2.2, Function.update c.calls i (call.after r.1)⟩

theorem run_advanceAll {threads : List ι} {trace : List Event} (h : Run (steppedClients ι A params creation) trace c)
    (hp : advanceAll A threads c = some c') : ∃ trace', Run (steppedClients ι A params creation) trace' c' := by
  induction threads generalizing c trace with
  | nil =>
    cases hp
    exact ⟨trace, h⟩
  | cons i rest ih =>
    obtain ⟨call, hcall, hp⟩ := Option.bind_eq_some_iff.mp hp
    obtain ⟨⟨next, a, mem⟩, he, hp⟩ := Option.bind_eq_some_iff.mp hp
    exact ih (h.step (.advance hcall he)) hp

theorem run_others {actions : List AllocatorAction} {sys' : AllocatorSystem} {trace : List Event}
    (h : Run (steppedClients ι A params creation) trace c) (ha : ∀ action ∈ actions, AsksNothing action)
    (hp : c.system.performAll A actions = some sys') :
    ∃ trace', Run (steppedClients ι A params creation) trace' ⟨sys', c.calls⟩ := by
  induction actions generalizing c trace with
  | nil =>
    cases hp
    exact ⟨trace, h⟩
  | cons action rest ih =>
    obtain ⟨sys₁, h₁, hp⟩ := Option.bind_eq_some_iff.mp hp
    have hfirst := ha action List.mem_cons_self
    have hother : ∀ x, action ≠ .deallocate x := by
      rintro x rfl
      cases hfirst
    exact @ih ⟨sys₁, c.calls⟩ _ (h.step (.other hother hfirst.mayDo hfirst.keepsIntervals h₁))
      (fun b hb => ha b (List.mem_cons_of_mem _ hb)) hp

end

def twoCalls (x y : Held) : Bool → Option DeallocateCall :=
  Function.update (Function.update (fun _ => none) false (some { target := x })) true (some { target := y })

def takingTurns : List Bool :=
  [false, true, false, true, false, true, false, true, false, true, false, true]

theorem run_twoCalls {sys : AllocatorSystem} {x y : Held} (h : afterActions twoRequests = some sys)
    (hlive : sys.live = [x, y]) (hne : x ≠ y) :
    ∃ trace, Run (steppedClients Bool oneThreadAllocator cachedHeapParams cachedHeapAnswers) trace
      ⟨sys, twoCalls x y⟩ := by
  have hok : createCachedHeap.map Prod.fst = some true := by decide +kernel
  obtain ⟨⟨ok, a, mem⟩, hcreate, rfl⟩ := Option.map_eq_some_iff.mp hok
  rw [afterActions, hcreate] at h
  have hstart : (steppedClients Bool oneThreadAllocator cachedHeapParams cachedHeapAnswers).start
      ⟨⟨a, mem, []⟩, fun _ => none⟩ := ⟨⟨_, _, _, _, freshHeaps_cached, hcreate, rfl⟩, fun _ => rfl⟩
  obtain ⟨trace, hserved⟩ := run_others (.start hstart) asksNothing_twoRequests h
  have hx : x ∈ sys.live := hlive ▸ List.mem_cons_self
  have hy : y ∈ sys.live := hlive ▸ List.mem_cons_of_mem _ List.mem_cons_self
  have hfirst := hserved.step (.call (i := false) rfl hx fun j call hcall => by cases hcall)
  have hsecond := hfirst.step (.call (i := true) rfl hy fun j call hcall => ?_)
  · exact ⟨_, hsecond⟩
  · rcases update_cases hcall with ⟨-, heq⟩ | ⟨-, hnone⟩
    · cases heq
      exact hne
    · cases hnone

/-- The second call has returned, the first one is about to take the lock. -/
theorem deallocation_linearizes_of_two : ∃ c trace, (oneThreadAllocator.localHeap.concurrency = .threadLocal ∧
      SoundCreation cachedHeapParams cachedHeapAnswers ∧
      Run (steppedClients Bool oneThreadAllocator cachedHeapParams cachedHeapAnswers) trace c) ∧
    (c.system.live = [⟨1052656, 16, none, .small 0⟩] ∧ c.calls true = none ∧
      c.calls false = some ⟨⟨1052656, 16, none, .small 0⟩, .deliver none (.small 0), 6⟩) ∧
    Run (AllocatorSystem.clients oneThreadAllocator cachedHeapParams cachedHeapAnswers) trace c.system ∧
    Proceeds oneThreadAllocator (4096 / oneThreadAllocator.localHeapSize) c.system ⟨1052656, 16, none, .small 0⟩
      (.deliver none (.small 0)) := by
  have hstate : (afterActions twoRequests).bind (fun sys =>
      (advanceAll oneThreadAllocator takingTurns
        ⟨sys, twoCalls ⟨1052656, 16, none, .small 0⟩ ⟨2101232, 16, some 0, .small 0⟩⟩).map fun c =>
          (sys.live, c.system.live, c.calls true, c.calls false)) =
      some ([⟨1052656, 16, none, .small 0⟩, ⟨2101232, 16, some 0, .small 0⟩], [⟨1052656, 16, none, .small 0⟩], none,
        some ⟨⟨1052656, 16, none, .small 0⟩, .deliver none (.small 0), 6⟩) := by decide +kernel
  obtain ⟨sys, h, hstate⟩ := Option.bind_eq_some_iff.mp hstate
  obtain ⟨c, hturns, hstate⟩ := Option.map_eq_some_iff.mp hstate
  simp only [Prod.mk.injEq] at hstate
  obtain ⟨hserved, hlive, hreturned, hpending⟩ := hstate
  obtain ⟨trace, hcalls⟩ := run_twoCalls h hserved (by decide)
  obtain ⟨trace', hrun⟩ := run_advanceAll hcalls hturns
  obtain ⟨hatomic, hproceeds⟩ := deallocation_linearizes rfl soundCreation_cached hrun
  exact ⟨c, trace', ⟨rfl, soundCreation_cached, hrun⟩, ⟨hlive, hreturned, hpending⟩, hatomic,
    (hproceeds false _ hpending).2⟩

end Metamalloc.Allocator
