import Metamalloc.Allocator.AllocationCalls
import Metamalloc.Library.MemoryManager

/-! The allocator and its threads as a memory manager: what the clients see of any run, a memory manager can show. -/
namespace Metamalloc.Allocator
open Library.Word64 Library.ByteMemory Library.Tiling Library.Refinement Library.MemoryManager
open Pages Segments Heaps ScalableAllocator

def Held.block (x : Held) : Block := ⟨x.ptr, x.allocation.size⟩

namespace AllocatorSystem

/-- What clients see of the allocator: what they hold, and the bytes in it. -/
def view : View AllocatorSystem where
  blocks := fun sys => {b | ∃ x ∈ sys.live, x.block = b}
  bytes := fun sys => sys.memory.bytes

/-- What the clients see of an action. A lookup, a refusal, recycling and the end of a thread are internal. -/
def eventOf (sys sys' : AllocatorSystem) : AllocatorAction → Option Event
  | .allocateLocal _ _ _ | .allocateCentral _ _ =>
    if sys'.live = sys.live then none else sys'.live.head?.map fun x => .allocated x.size x.block
  | .deallocate x => some (.released x.block)
  | .store address value => some (.stored address value)
  | .getThreadLocalHeap _ _ | .recycle _ | .exit _ => none

variable (A : AllocatorType) (params : CreationParams) (creation : CreationAnswers)

def clients : TransitionSystem AllocatorSystem Event where
  start := fun sys => ∃ count a mem mem', FreshHeaps params creation ∧
    create A params creation (setThreadLocalHeapCacheCount count {}) mem = some (true, a, mem') ∧ sys = ⟨a, mem', []⟩
  step := fun sys e sys' =>
    (∃ action, sys.MayDo action ∧ sys.KeepsIntervals A action ∧ sys.perform A action = some sys' ∧
      e = sys.eventOf sys' action) ∨
    ∃ x ∈ sys.live, ∃ address, x.ptr ≤ address ∧ address < x.ptr + x.size ∧
      e = some (.loaded address (sys.memory.bytes address)) ∧ sys' = sys

end AllocatorSystem
open AllocatorSystem

section
variable {s s' : Segment} {mem mem' : Memory} {affected : Nat}

theorem bytes_recycleFreeLoop {fuel num iter iterPrevious : Nat}
    (h : Segment.recycleFreeLoop fuel num iter iterPrevious s mem = some (s', mem')) : mem'.bytes = mem.bytes := by
  induction fuel generalizing num iter iterPrevious s mem with
  | zero => cases h
  | succ fuel ih =>
    rw [Segment.recycleFreeLoop] at h
    split at h
    · cases h
      rfl
    split at h
    · cases h
    split at h
    · dsimp only at h
      split at h
      · cases h
      · exact (ih h).trans SegmentInv.bytes_recycleLogicalPage
    · exact ih h

theorem bytes_recycleSegments {ids : List SegmentId} {heap heap' : SimpleHeapPow2}
    (h : SimpleHeapPow2.recycleSegments ids heap mem = some (heap', mem')) : mem'.bytes = mem.bytes := by
  induction ids generalizing heap mem with
  | nil =>
    cases h
    rfl
  | cons id rest ih =>
    rw [SimpleHeapPow2.recycleSegments] at h
    split at h
    · cases h
    · rename_i hrecycled
      exact (ih h).trans (bytes_recycleFreeLoop hrecycled)

end

section
variable {A : AllocatorType} {params : CreationParams} {creation : CreationAnswers} {sys sys' : AllocatorSystem}
  {built : Nat → Prop} {g : Option Nat × SegmentId → Ghost} {x y : Held} {thread size : Nat} {arena : ArenaAnswers}

theorem valid_view (h : HeapsInv A sys built g) : view.Valid sys := by
  refine ⟨?_, ?_⟩
  · rintro _ ⟨x, hx, rfl⟩ _ ⟨y, hy, rfl⟩ hne
    have hxy : y ≠ x := by
      rintro rfl
      exact hne rfl
    exact h.apart hx ((List.mem_erase_of_ne hxy).mpr hy)
  · rintro _ ⟨x, hx, rfl⟩
    exact h.ptr_ne_zero hx

theorem keeps_of_spares {live : List Held} {blocks : Set Block}
    (h : Spares sys.memory sys'.memory (live.map Held.allocation)) (hblocks : ∀ b ∈ blocks, ∃ x ∈ live, x.block = b) :
    view.Keeps blocks sys sys' := by
  intro b hb c hc
  obtain ⟨x, hx, rfl⟩ := hblocks b hb
  exact h _ (List.mem_map_of_mem hx) c hc

theorem changes_nothing (hlive : sys'.live = sys.live)
    (h : Spares sys.memory sys'.memory (sys.live.map Held.allocation)) : view.Changes sys sys' none :=
  ⟨by simp only [view, hlive], keeps_of_spares h fun _ hb => hb⟩

theorem blocks_cons (hlive : sys'.live = x :: sys.live) : view.blocks sys' = insert x.block (view.blocks sys) := by
  ext b
  simp only [view, hlive, List.exists_mem_cons_iff, Set.mem_ofPred_eq, Set.mem_insert_iff, eq_comm]

theorem changes_allocateOn {owner : Option Nat} {g' : Option Nat × SegmentId → Ghost}
    (h : sys.allocateOn A owner size arena = some sys') (hinv' : HeapsInv A sys' built g')
    (hspares : Spares sys.memory sys'.memory (sys.live.map Held.allocation)) :
    view.Changes sys sys' (if sys'.live = sys.live then none
      else sys'.live.head?.map fun x => .allocated x.size x.block) := by
  obtain ⟨r, -, rfl⟩ := Option.map_eq_some_iff.mp h
  by_cases hret : r.1 = 0
  · have hlive : (if r.1 = 0 then sys.live else
        (⟨r.1, size, owner, (SimpleHeapPow2.requestTarget size).1⟩ : Held) :: sys.live) = sys.live := if_pos hret
    rw [if_pos hlive]
    exact changes_nothing hlive hspares
  · obtain ⟨x, hx⟩ : ∃ x : Held, x = ⟨r.1, size, owner, (SimpleHeapPow2.requestTarget size).1⟩ := ⟨_, rfl⟩
    rw [if_neg hret, ← hx] at hinv' ⊢
    rw [if_neg (List.cons_ne_self _ _), List.head?_cons, Option.map_some]
    have hmem : x ∈ x :: sys.live := List.mem_cons_self
    refine ⟨?_, hinv'.fits x hmem, blocks_cons rfl, keeps_of_spares hspares fun _ hb => hb⟩
    rintro ⟨y, hy, heq⟩
    have hrest : y ∈ (x :: sys.live).erase x := by
      rw [List.erase_cons_head]
      exact hy
    exact hinv'.ptr_ne hmem hrest (congrArg Block.start heq)

theorem blocks_erase (h : HeapsInv A sys built g) (hx : x ∈ sys.live) (hlive : sys'.live = sys.live.erase x) :
    view.blocks sys' = view.blocks sys \ {x.block} := by
  ext b
  simp only [view, hlive, Set.mem_ofPred_eq, Set.mem_sdiff, Set.mem_singleton_iff]
  constructor
  · rintro ⟨y, hy, rfl⟩
    exact ⟨⟨y, List.mem_of_mem_erase hy, rfl⟩, fun heq => h.ptr_ne hx hy (congrArg Block.start heq)⟩
  · rintro ⟨⟨y, hy, rfl⟩, hne⟩
    have hyx : y ≠ x := by
      rintro rfl
      exact hne rfl
    exact ⟨y, (List.mem_erase_of_ne hyx).mpr hy, rfl⟩

theorem changes_deallocate (h : HeapsInv A sys built g) (hx : x ∈ sys.live)
    (hp : sys.perform A (.deallocate x) = some sys') : view.Changes sys sys' (some (.released x.block)) := by
  obtain ⟨_, s', mem', _, _, _, _, he, -, -, hspares⟩ := h.deallocate_ok hx
  rw [perform, he] at hp
  cases hp
  exact ⟨⟨x, hx, rfl⟩, blocks_erase h hx rfl, keeps_of_spares hspares fun b hb => hb⟩

theorem holds_of_stored {address : Nat} (h : HeapsInv A sys built g) (hx : x ∈ sys.live) (hlo : x.ptr ≤ address)
    (hhi : address < x.ptr + x.size) : ∃ b ∈ view.blocks sys, b.Holds address :=
  ⟨x.block, ⟨x, hx, rfl⟩, hlo, Nat.lt_of_lt_of_le hhi (Nat.add_le_add_left (h.fits x hx) _)⟩

theorem bytes_exit (hc : sys.KeepsIntervals A (.exit thread)) (hp : sys.perform A (.exit thread) = some sys') :
    sys'.memory = sys.memory ∧ sys'.live = sys.live := by
  simp only [perform, threadSpecificDestructor] at hp
  cases hstorage : sys.allocator.threadLocalStorage thread with
  | none =>
    rw [hstorage] at hp
    cases hp
    exact ⟨rfl, rfl⟩
  | some i =>
    rw [hstorage] at hp
    simp only [SimpleHeapPow2.transferLogicalPagesFrom, transferSegments_empty (hc i hstorage), Option.map_some,
      Option.some.injEq] at hp
    subst hp
    exact ⟨rfl, rfl⟩

theorem changes_perform {action : AllocatorAction} (h : RunInv A params sys built g)
    (hpolicy : A.localHeap.concurrency = .threadLocal) (hsound : SoundCreation params creation)
    (ha : sys.MayDo action) (hc : sys.KeepsIntervals A action) (hp : sys.perform A action = some sys') :
    view.Changes sys sys' (sys.eventOf sys' action) := by
  cases action with
  | getThreadLocalHeap thread answers =>
    have hspares := (h.getThreadLocalHeap_ok hpolicy hsound ha hc hp).2
    obtain ⟨r, -, rfl⟩ := Option.map_eq_some_iff.mp hp
    exact changes_nothing rfl hspares
  | allocateLocal thread size arena =>
    obtain ⟨i, hi, he⟩ := Option.bind_eq_some_iff.mp hp
    obtain ⟨hbuilt, hactive⟩ := h.storage thread i hi
    obtain ⟨sys₁, g₁, he₁, hinv, -, hspares⟩ := h.allocateLocal_ok size arena hpolicy hbuilt hactive
    cases he.symm.trans he₁
    exact changes_allocateOn he hinv hspares
  | allocateCentral size arena =>
    obtain ⟨sys₁, g₁, he₁, hinv, -, hspares⟩ := h.allocateCentral_ok ha hc
    cases hp.symm.trans he₁
    exact changes_allocateOn he₁ hinv hspares
  | deallocate x => exact changes_deallocate h.toHeapsInv ha hp
  | recycle owner =>
    obtain ⟨r, he, rfl⟩ := Option.map_eq_some_iff.mp hp
    exact changes_nothing rfl (.of_bytes (bytes_recycleSegments he) _)
  | exit thread =>
    obtain ⟨hmemory, hlive⟩ := bytes_exit hc hp
    exact changes_nothing hlive (.of_bytes (congrArg Memory.bytes hmemory) _)
  | store address value =>
    obtain ⟨x, hx, hlo, hhi⟩ := ha
    cases hp
    exact ⟨holds_of_stored h.toHeapsInv hx hlo hhi, rfl, rfl⟩

theorem clients_simulate (hpolicy : A.localHeap.concurrency = .threadLocal) (hsound : SoundCreation params creation) :
    Simulation (clients A params creation) Library.MemoryManager.system fun sys m =>
      AllocatorRun A params creation (KeepsIntervals A) sys ∧ view.Shows sys m := by
  refine View.simulates ?_ ?_ ?_
  · rintro _ ⟨count, a, mem, mem', hfresh, hcreate, rfl⟩
    exact ⟨.create hfresh hcreate, by simp [view]⟩
  · intro sys hrun
    obtain ⟨built, g, hinv⟩ := hrun.inv hpolicy hsound
    exact valid_view hinv.toHeapsInv
  · intro sys e sys' hrun hstep
    obtain ⟨built, g, hinv⟩ := hrun.inv hpolicy hsound
    rcases hstep with ⟨action, ha, hc, hp, rfl⟩ | ⟨x, hx, address, hlo, hhi, rfl, rfl⟩
    · exact ⟨hrun.step ha hc hp, changes_perform hinv hpolicy hsound ha hc hp⟩
    · exact ⟨hrun, holds_of_stored hinv.toHeapsInv hx hlo hhi, rfl, rfl⟩

/-- What the clients see of a run of the allocator, they could have seen of a memory manager. -/
theorem allocator_refines_manager {trace : List Event} (hpolicy : A.localHeap.concurrency = .threadLocal)
    (hsound : SoundCreation params creation) (h : Run (clients A params creation) trace sys) :
    ∃ m, Run Library.MemoryManager.system trace m ∧ view.Shows sys m := by
  obtain ⟨m, hm, -, hshows⟩ := (clients_simulate hpolicy hsound).run h
  exact ⟨m, hm, hshows⟩

/-- Whatever the threads do, every client finds in its blocks what it has stored, and gets blocks of its own. -/
theorem clients_trust_allocator {trace : List Event} (hpolicy : A.localHeap.concurrency = .threadLocal)
    (hsound : SoundCreation params creation) (h : Run (clients A params creation) trace sys) : Trusted trace := by
  obtain ⟨m, hm, -⟩ := (clients_simulate hpolicy hsound).run h
  exact trusted hm

end

def eventsOf (A : AllocatorType) : List AllocatorAction → AllocatorSystem → List Event
  | [], _ => []
  | action :: rest, sys =>
    match sys.perform A action with
    | none => []
    | some sys' => (sys.eventOf sys' action).toList ++ eventsOf A rest sys'

section
variable {A : AllocatorType} {params : CreationParams} {creation : CreationAnswers} {sys sys' : AllocatorSystem}
  {actions : List AllocatorAction} {trace : List Event}

theorem run_performAll (h : Run (clients A params creation) trace sys) (ha : ∀ action ∈ actions, AsksNothing action)
    (hp : sys.performAll A actions = some sys') :
    Run (clients A params creation) (trace ++ eventsOf A actions sys) sys' := by
  induction actions generalizing sys trace with
  | nil =>
    cases hp
    rw [eventsOf, List.append_nil]
    exact h
  | cons action rest ih =>
    obtain ⟨sys₁, h₁, h₂⟩ := Option.bind_eq_some_iff.mp hp
    have hfirst := ha action List.mem_cons_self
    rw [eventsOf, h₁, ← List.append_assoc]
    exact ih (h.step (.inl ⟨action, hfirst.mayDo, hfirst.keepsIntervals, h₁, rfl⟩))
      (fun b hb => ha b (List.mem_cons_of_mem _ hb)) h₂

end

/-- Both threads get 16 bytes; the one with a heap of its own writes to its block and reads it. -/
def twoClients : List Event :=
  [.allocated 16 ⟨2101232, 16⟩, .allocated 16 ⟨1052656, 16⟩, .stored 2101232 7, .loaded 2101232 7]

theorem run_twoClients :
    ∃ sys, Run (clients oneThreadAllocator cachedHeapParams cachedHeapAnswers) twoClients sys := by
  have hstate : createCachedHeap.bind (fun r =>
      (AllocatorSystem.performAll oneThreadAllocator twoRequests ⟨r.2.1, r.2.2, []⟩).map fun sys =>
        (r.1, eventsOf oneThreadAllocator twoRequests ⟨r.2.1, r.2.2, []⟩, sys.live)) =
      some (true, [.allocated 16 ⟨2101232, 16⟩, .allocated 16 ⟨1052656, 16⟩],
        [⟨1052656, 16, none, .small 0⟩, ⟨2101232, 16, some 0, .small 0⟩]) := by decide +kernel
  obtain ⟨⟨ok, a, mem⟩, hcreate, hrest⟩ := Option.bind_eq_some_iff.mp hstate
  obtain ⟨sys, hperform, heq⟩ := Option.map_eq_some_iff.mp hrest
  simp only [Prod.mk.injEq] at heq
  obtain ⟨rfl, hevents, hlive⟩ := heq
  have hstart : Run (clients oneThreadAllocator cachedHeapParams cachedHeapAnswers) [] ⟨a, mem, []⟩ :=
    .start ⟨_, _, _, _, freshHeaps_cached, hcreate, rfl⟩
  have hserved := run_performAll hstart asksNothing_twoRequests hperform
  rw [hevents] at hserved
  have hmem : (⟨2101232, 16, some 0, .small 0⟩ : Held) ∈ sys.live := by
    rw [hlive]
    exact List.mem_cons_of_mem _ List.mem_cons_self
  have hmay : sys.MayDo (.store 2101232 7) := ⟨_, hmem, by decide, by decide⟩
  have hstored := hserved.step (.inl ⟨.store 2101232 7, hmay, trivial, rfl, rfl⟩)
  have hread : some (.loaded 2101232 7) = some (Event.loaded 2101232
      (Function.update sys.memory.bytes 2101232 7 2101232)) := by rw [Function.update_self]
  exact ⟨_, hstored.step (.inr ⟨_, hmem, 2101232, by decide, by decide, hread, rfl⟩)⟩

theorem twoClients_refine_manager : (∃ sys,
      Run (clients oneThreadAllocator cachedHeapParams cachedHeapAnswers) twoClients sys) ∧
    ∃ m, Run Library.MemoryManager.system twoClients m := by
  obtain ⟨sys, h⟩ := run_twoClients
  obtain ⟨m, hm, -⟩ := allocator_refines_manager rfl soundCreation_cached h
  exact ⟨⟨sys, h⟩, m, hm⟩

theorem twoClients_trust_allocator : (∃ sys,
      Run (clients oneThreadAllocator cachedHeapParams cachedHeapAnswers) twoClients sys) ∧ Trusted twoClients := by
  obtain ⟨sys, h⟩ := run_twoClients
  exact ⟨⟨sys, h⟩, clients_trust_allocator rfl soundCreation_cached h⟩

end Metamalloc.Allocator
