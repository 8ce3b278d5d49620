import Metamalloc.Heaps.ArenaRequests

/-! A heap, its arena and the address space of the process as one system: the requests of the
segments are answered by the arena, and the pages they give back are unmapped. The arena has
no lock. -/
namespace Metamalloc.Heaps
open Library.Word64 Library.Tiling Library.ByteMemory Library.LinkedList Pages Segments Arenas

structure HeapProcess where
  heap : HeapSystem
  arena : ArenaSystem

inductive ProcessAction where
  | allocate (size : Nat) (answers : SystemAnswers)
  | deallocate (x : Grant)
  | store (address : Nat) (value : UInt8)
  /-- Other users of the arena, and the rest of the process. -/
  | arena (action : ArenaAction)

namespace HeapProcess
variable (H : HeapType) (policy : VirtualMemoryPolicy)

/-- One call, or a store of a client; a store to an address that is not mapped has no result. -/
def perform (p : HeapProcess) : ProcessAction → Option HeapProcess
  | .allocate size answers =>
    (p.heap.perform H (.allocate size (p.arena.answers policy answers))).bind fun heap =>
      (p.arena.afterRequest policy answers (p.heap.arenaRequest H size)).bind fun arena =>
        (arena.releaseLogged policy (p.heap.releasedUntil heap)).map fun arena => ⟨heap, arena⟩
  | .deallocate x =>
    (p.heap.perform H (.deallocate x)).bind fun heap =>
      (p.arena.releaseLogged policy (p.heap.releasedUntil heap)).map fun arena => ⟨heap, arena⟩
  | .store address value =>
    if p.arena.mapped address then
      (p.heap.perform H (.store address value)).map fun heap => { p with heap := heap }
    else none
  | .arena action => (p.arena.perform policy action).map fun r => { p with arena := r.2.2 }

/-- The system answers calls of the arena as a system does. -/
def SystemServes (vm : Nat) (sys : ArenaSystem) (action : ArenaAction) : Prop :=
  ∀ ret calls sys', sys.perform policy action = some (ret, calls, sys') →
    Library.AddressSpace.Grants vm sys.mapped calls

/-- Clients give back and write to what they hold; the other users of the arena give back no page
of the heap. -/
def Allowed (vm : Nat) (p : HeapProcess) : ProcessAction → Prop
  | .allocate size answers => ∀ n, p.heap.arenaRequest H size = some n →
      SystemServes policy vm p.arena (.allocate n answers)
  | .deallocate x => p.heap.Allowed (.deallocate x)
  | .store address value => p.heap.Allowed (.store address value)
  | .arena action => p.arena.Allowed p.heap.heap.smallObjectLogicalPageSize action ∧
      SystemServes policy vm p.arena action ∧
      ∀ range part, action = .release range part → 0 < part.size ∧ ∀ c, part.Holds c → ¬ p.heap.Mapped c

end HeapProcess

/-- The states of runs over an arena of this process, which may have served others before. -/
inductive ProcessReachable (H : HeapType) (policy : VirtualMemoryPolicy) (vm capacity : Nat)
    (params : HeapCreationParams) : HeapProcess → Prop
  | create {arena arena' : ArenaSystem} {answers : SystemAnswers} {queueMemory : SegmentId → Bool}
      {heap : SimpleHeapPow2} {mem mem' : Memory}
      (harena : ArenaReachable policy vm capacity params.smallObjectLogicalPageSize arena)
      (hserves : HeapProcess.SystemServes policy vm arena (.allocate (heapBytes params) answers))
      (hp : arena.afterRequest policy answers (some (heapBytes params)) = some arena')
      (h : SimpleHeapPow2.create H params arena.arena.pageAlignment (arena.answers policy answers).request
        queueMemory {} mem = some (true, heap, mem')) :
      ProcessReachable H policy vm capacity params ⟨⟨heap, mem', []⟩, arena'⟩
  | step {p p' : HeapProcess} {action : ProcessAction} (h : ProcessReachable H policy vm capacity params p)
      (ha : p.Allowed H policy vm action) (hp : p.perform H policy action = some p') :
      ProcessReachable H policy vm capacity params p'

/-- Page sizes that fit each other, and segments that grow by what they need. -/
structure ProcessConfig (vm capacity : Nat) (params : HeapCreationParams) : Prop where
  power : ∃ k, params.smallObjectLogicalPageSize = 2^k
  growCoefficient : params.segmentGrowCoefficient.positive = false
  vm_pos : 0 < vm
  vm_dvd : vm ∣ params.smallObjectLogicalPageSize
  capacity_dvd : vm ∣ capacity
  capacity_bound : capacity + params.smallObjectLogicalPageSize < 2^64
  bytes_bound : heapBytes params + params.smallObjectLogicalPageSize < 2^64

/-- The heap is safe, every byte it uses or has given out is mapped, and no call stops. -/
structure ProcessSafe (H : HeapType) (policy : VirtualMemoryPolicy) (vm : Nat) (p : HeapProcess) : Prop where
  heap : HeapSafe H p.heap
  pages : ∀ c, p.heap.Mapped c → p.arena.mapped c = true
  clients : ∀ x ∈ p.heap.live, ∀ c, x.ptr ≤ c → c < x.ptr + x.size → p.arena.mapped c = true
  progress : ∀ action, p.Allowed H policy vm action → (p.perform H policy action).isSome

/-- The pages of the heap lie in what the arena has handed out. -/
structure ProcessInv (H : HeapType) (policy : VirtualMemoryPolicy) (vm capacity : Nat)
    (params : HeapCreationParams) (p : HeapProcess) : Prop where
  heap : HeapReachable H p.heap
  arena : ArenaReachable policy vm capacity params.smallObjectLogicalPageSize p.arena
  pageSize : p.heap.heap.smallObjectLogicalPageSize = params.smallObjectLogicalPageSize
  growth : ∀ id, params.smallObjectLogicalPageSize ∣ (p.heap.heap.segment id).logicalPageSize ∧
    (p.heap.heap.segment id).logicalPageSize + params.smallObjectLogicalPageSize < 2^64
  backed : ∀ id l, p.heap.Lists id l → ∀ a ∈ l,
    Backed p.arena.granted ⟨a, (p.heap.heap.segment id).logicalPageSize⟩

section
variable {H : HeapType} {policy : VirtualMemoryPolicy} {vm capacity : Nat} {params : HeapCreationParams}
  {p p' : HeapProcess} {g : SegmentId → Ghost} {size : Nat} {answers : SystemAnswers}

namespace ProcessConfig

theorem page_pos (h : ProcessConfig vm capacity params) : 0 < params.smallObjectLogicalPageSize := by
  obtain ⟨k, hk⟩ := h.power
  rw [hk]
  exact Nat.two_pow_pos k

theorem arenaInv {arena : ArenaSystem} (h : ProcessConfig vm capacity params)
    (ha : ArenaReachable policy vm capacity params.smallObjectLogicalPageSize arena) :
    ArenaSystemInv vm params.smallObjectLogicalPageSize arena :=
  ha.inv h.vm_pos h.page_pos h.vm_dvd h.capacity_dvd h.capacity_bound

theorem arena_step {arena : ArenaSystem} {action : ArenaAction} (h : ProcessConfig vm capacity params)
    (ha : ArenaReachable policy vm capacity params.smallObjectLogicalPageSize arena)
    (hallowed : arena.Allowed params.smallObjectLogicalPageSize action)
    (hserves : HeapProcess.SystemServes policy vm arena action) :
    ∃ ret calls arena', arena.perform policy action = some (ret, calls, arena') ∧
      ArenaReachable policy vm capacity params.smallObjectLogicalPageSize arena' := by
  have hok : StepOk policy vm params.smallObjectLogicalPageSize arena action :=
    Arenas.perform_ok (h.arenaInv ha) h.vm_pos h.page_pos h.vm_dvd hallowed
  obtain ⟨⟨ret, calls, arena'⟩, hp⟩ := Option.isSome_iff_exists.mp hok.1
  exact ⟨ret, calls, arena', hp, ha.step hallowed hp (hserves ret calls arena' hp)⟩

end ProcessConfig

namespace ProcessInv

/-- Whatever lies on a page of the heap was handed out by the arena. -/
theorem granted_of_mapped (h : ProcessInv H policy vm capacity params p) {c : Nat} (hc : p.heap.Mapped c) :
    ∃ b ∈ p.arena.granted, b.Holds c := by
  obtain ⟨id, l, hl, a, ha, hlo, hhi⟩ := hc
  obtain ⟨range, hrange, hstart, hend⟩ := h.backed id l hl a ha
  refine ⟨range, hrange, ?_, ?_⟩
  · exact hstart.trans hlo
  · exact hhi.trans_le hend

theorem mapped (hconfig : ProcessConfig vm capacity params) (h : ProcessInv H policy vm capacity params p)
    {c : Nat} (hc : p.heap.Mapped c) : p.arena.mapped c = true := by
  obtain ⟨b, hb, hholds⟩ := h.granted_of_mapped hc
  exact (hconfig.arenaInv h.arena).granted b hb c hholds

theorem mapped_of_live {x : Grant} {c : Nat} (hdirect : H.concurrency ≠ .threadLocal)
    (hconfig : ProcessConfig vm capacity params) (h : ProcessInv H policy vm capacity params p)
    (hx : x ∈ p.heap.live) (hlo : x.ptr ≤ c) (hhi : c < x.ptr + x.size) : p.arena.mapped c = true := by
  obtain ⟨g, hg⟩ := h.heap.inv hdirect
  have hpage := (hg.segmentInv x.segment).mem_of_owned (hg.taken x hx).1
  have hin := hg.granted_inside hx
  exact h.mapped hconfig ⟨x.segment, _, hg.lists x.segment, x.page, hpage, by omega, by omega⟩

theorem request_allowed {n : Nat} (answers : SystemAnswers) (h : ProcessInv H policy vm capacity params p)
    (hg : HeapSystemInv H p.heap g) (hrequest : p.heap.arenaRequest H size = some n) :
    p.arena.Allowed params.smallObjectLogicalPageSize (.allocate n answers) := by
  rw [arenaRequest_eq hg hrequest]
  obtain ⟨hdvd, hbound⟩ := h.growth (SimpleHeapPow2.requestTarget size).1
  exact ⟨(hg.segmentInv _).pageSize_pos, hdvd, hbound⟩

/-- What a step has to keep. -/
theorem next {heap : HeapSystem} {arena : ArenaSystem} (h : ProcessInv H policy vm capacity params p)
    (hheap : HeapReachable H heap)
    (harena : ArenaReachable policy vm capacity params.smallObjectLogicalPageSize arena)
    (hsegments : ∀ id, (heap.heap.segment id).toSegmentConfig = (p.heap.heap.segment id).toSegmentConfig)
    (hsize : heap.heap.smallObjectLogicalPageSize = p.heap.heap.smallObjectLogicalPageSize)
    (hbacked : ∀ id l, heap.Lists id l → ∀ a ∈ l,
      Backed arena.granted ⟨a, (p.heap.heap.segment id).logicalPageSize⟩) :
    ProcessInv H policy vm capacity params ⟨heap, arena⟩ := by
  have hpage : ∀ id, (heap.heap.segment id).logicalPageSize = (p.heap.heap.segment id).logicalPageSize :=
    fun id => congrArg SegmentConfig.logicalPageSize (hsegments id)
  refine ⟨hheap, harena, hsize.trans h.pageSize, fun id => ?_, fun id l hl a ha => ?_⟩
  · dsimp only
    rw [hpage]
    exact h.growth id
  · dsimp only
    rw [hpage]
    exact hbacked id l hl a ha

theorem releasedUntil_self {sys sys' : HeapSystem} (h : sys'.memory.released = sys.memory.released) :
    sys.releasedUntil sys' = [] := by
  rw [HeapSystem.releasedUntil, h, Nat.sub_self, List.take_zero]

theorem releasedUntil_cons {sys sys' : HeapSystem} {r : Nat × Nat}
    (h : sys'.memory.released = r :: sys.memory.released) : sys.releasedUntil sys' = [r] := by
  rw [HeapSystem.releasedUntil, h, List.length_cons, Nat.add_sub_cancel_left]
  rfl

theorem freshAnswers {n ret : Nat} {calls : List Library.AddressSpace.SystemCall} {arena : ArenaSystem}
    (hconfig : ProcessConfig vm capacity params) (h : ProcessInv H policy vm capacity params p)
    (hallowed : p.arena.Allowed params.smallObjectLogicalPageSize (.allocate n answers))
    (hp : p.arena.perform policy (.allocate n answers) = some (ret, calls, arena))
    (hsystem : Library.AddressSpace.Grants vm p.arena.mapped calls) :
    p.heap.FreshAnswers ⟨fun m => if m = n then ret else 0, fun _ => 0⟩ := by
  intro m hm
  dsimp only at hm ⊢
  split at hm
  · rename_i heq
    subst heq
    rw [if_pos rfl, h.pageSize]
    have hfresh := arena_answers_fresh hconfig.vm_pos hconfig.page_pos hconfig.vm_dvd hconfig.capacity_dvd
      hconfig.capacity_bound h.arena hallowed hp hsystem hm
    exact hfresh.mono fun c hc => h.granted_of_mapped hc
  · exact absurd rfl hm

theorem allocate_ok (hdirect : H.concurrency ≠ .threadLocal) (hconfig : ProcessConfig vm capacity params)
    (h : ProcessInv H policy vm capacity params p) (ha : p.Allowed H policy vm (.allocate size answers)) :
    ∃ p', p.perform H policy (.allocate size answers) = some p' ∧
      ProcessInv H policy vm capacity params p' := by
  obtain ⟨g, hg⟩ := h.heap.inv hdirect
  cases hrequest : p.heap.arenaRequest H size with
  | none =>
    -- The arena is not asked.
    have hfresh : p.heap.Allowed (.allocate size refusingArena) := fun n hn => absurd rfl hn
    obtain ⟨heap, hp, hlog, hsegments, hsize, hpages⟩ := allocate_pages size hg hdirect hfresh
    have hheap := h.heap.step hfresh hp
    have hanswers : p.heap.perform H (.allocate size (p.arena.answers policy answers)) = some heap := by
      rw [← hp]
      exact allocate_answers hg hdirect fun n hn => by cases hrequest.symm.trans hn
    refine ⟨⟨heap, p.arena⟩, ?_, h.next hheap h.arena hsegments hsize fun id l hl a ha => ?_⟩
    · simp only [HeapProcess.perform, hanswers, hrequest, Option.bind_some, ArenaSystem.afterRequest,
        releasedUntil_self hlog, ArenaSystem.releaseLogged, Option.map_some]
    · rcases hpages id l hl a ha with hold | ⟨hne, hnew⟩
      · exact h.backed id _ (hg.lists id) a hold
      · exact absurd hnew.symm hne
  | some n =>
    have hallowed := h.request_allowed answers hg hrequest
    obtain ⟨ret, calls, arena, hstep, harena⟩ := hconfig.arena_step h.arena hallowed (ha n hrequest)
    have hfresh : p.heap.Allowed (.allocate size ⟨fun m => if m = n then ret else 0, fun _ => 0⟩) :=
      h.freshAnswers hconfig hallowed hstep (ha n hrequest ret calls arena hstep)
    obtain ⟨heap, hp, hlog, hsegments, hsize, hpages⟩ := allocate_pages size hg hdirect hfresh
    have hheap := h.heap.step hfresh hp
    have hanswers : p.heap.perform H (.allocate size (p.arena.answers policy answers)) = some heap := by
      rw [← hp]
      refine allocate_answers hg hdirect fun m hm => ?_
      obtain rfl : n = m := Option.some.inj (hrequest.symm.trans hm)
      rw [answers_request hstep]
      exact (if_pos rfl).symm
    refine ⟨⟨heap, arena⟩, ?_, h.next hheap harena hsegments hsize fun id l hl a ha => ?_⟩
    · simp only [HeapProcess.perform, hanswers, hrequest, Option.bind_some, ArenaSystem.afterRequest, hstep,
        releasedUntil_self hlog, ArenaSystem.releaseLogged, Option.map_some]
    · rcases hpages id l hl a ha with hold | ⟨hne, hnew⟩
      · refine (h.backed id _ (hg.lists id) a hold).mono fun b hb => ?_
        rcases granted_of_perform hstep with ⟨_, _, hrelease, _⟩ | hkeep
        · cases hrelease
        · exact hkeep b hb
      · -- The new page is the buffer itself.
        dsimp only at hnew
        split at hnew
        · rename_i hn
          rw [granted_of_allocate hstep (hnew ▸ hne), hn, hnew]
          exact ⟨⟨a, n⟩, List.mem_cons_self, le_rfl, le_rfl⟩
        · exact absurd hnew.symm hne

theorem pages_apart {id id' : SegmentId} {a b c : Nat} (hg : HeapSystemInv H p.heap g)
    (ha : a ∈ (g id).pages) (hb : b ∈ (g id').pages) (hne : id ≠ id' ∨ a ≠ b)
    (hc : (⟨a, (p.heap.heap.segment id).logicalPageSize⟩ : Block).Holds c) :
    ¬ (⟨b, (p.heap.heap.segment id').logicalPageSize⟩ : Block).Holds c := by
  intro hc'
  unfold Block.Holds at hc hc'
  by_cases hid : id = id'
  · subst hid
    have hapart := (hg.segmentInv id).apart_of_ne ha hb (hne.resolve_left (· rfl))
    simp only [PagesApart] at hapart
    dsimp only at hc hc'
    omega
  · exact hg.inv.family.apart id id' trivial trivial hid c ⟨a, ha, hc⟩ ⟨b, hb, hc'⟩

theorem deallocate_ok {x : Grant} (hdirect : H.concurrency ≠ .threadLocal)
    (h : ProcessInv H policy vm capacity params p) (ha : p.Allowed H policy vm (.deallocate x)) :
    ∃ p', p.perform H policy (.deallocate x) = some p' ∧ ProcessInv H policy vm capacity params p' := by
  obtain ⟨g, hg⟩ := h.heap.inv hdirect
  have hx : p.heap.Allowed (.deallocate x) := ha
  obtain ⟨heap, hp, hsegments, hsize, pages, hpages, hlog⟩ := deallocate_pages hg hdirect hx
  have hold : ∀ id, ∀ a ∈ (g id).pages, Backed p.arena.granted ⟨a, (p.heap.heap.segment id).logicalPageSize⟩ :=
    fun id => h.backed id _ (hg.lists id)
  have hheap := h.heap.step hx hp
  rcases hlog with ⟨hsame, rfl⟩ | ⟨a, ha, rfl, hreleased⟩
  · refine ⟨⟨heap, p.arena⟩, ?_, h.next hheap h.arena hsegments hsize fun id l hl b hb => ?_⟩
    · simp only [HeapProcess.perform, hp, Option.bind_some, releasedUntil_self hsame, ArenaSystem.releaseLogged,
        Option.map_some]
    · rw [hpages id l hl, Function.update_eq_self] at hb
      exact hold id b hb
  · obtain ⟨range, hallowed, hrelease⟩ := releaseToSystem_of_backed policy params.smallObjectLogicalPageSize
      (hold x.segment a ha)
    have harena := h.arena.step hallowed rfl trivial
    refine ⟨⟨heap, _⟩, ?_, h.next hheap harena hsegments hsize fun id l hl b hb => ?_⟩
    · simp only [HeapProcess.perform, hp, Option.bind_some, releasedUntil_cons hreleased,
        ArenaSystem.releaseLogged, hrelease, Option.map_some]
    · have hnodup := (hg.segmentInv x.segment).listed.ring.nodup_list
      have hkept : b ∈ (g id).pages ∧ (x.segment ≠ id ∨ a ≠ b) := by
        rw [hpages id l hl] at hb
        by_cases hid : id = x.segment
        · subst hid
          rw [Function.update_self] at hb
          exact ⟨List.mem_of_mem_erase hb, .inr fun heq => hnodup.not_mem_erase (heq ▸ hb)⟩
        · rw [Function.update_of_ne hid] at hb
          exact ⟨hb, .inl (Ne.symm hid)⟩
      exact (hold id b hkept.1).remaining (hg.segmentInv id).pageSize_pos
        (hg.segmentInv x.segment).pageSize_pos fun c => pages_apart hg ha hkept.1 hkept.2

theorem store_ok {address : Nat} {value : UInt8} (hdirect : H.concurrency ≠ .threadLocal)
    (hconfig : ProcessConfig vm capacity params) (h : ProcessInv H policy vm capacity params p)
    (ha : p.Allowed H policy vm (.store address value)) :
    ∃ p', p.perform H policy (.store address value) = some p' ∧ ProcessInv H policy vm capacity params p' := by
  obtain ⟨g, hg⟩ := h.heap.inv hdirect
  have hx : p.heap.Allowed (.store address value) := ha
  obtain ⟨x, hxl, hlo, hhi⟩ := ha
  have hmapped := h.mapped_of_live hdirect hconfig hxl hlo hhi
  refine ⟨⟨_, p.arena⟩, ?_, h.next (h.heap.step hx rfl) h.arena (fun _ => rfl) rfl h.backed⟩
  simp only [HeapProcess.perform, if_pos hmapped, HeapSystem.perform, Option.map_some]

theorem arena_ok {action : ArenaAction} (hdirect : H.concurrency ≠ .threadLocal)
    (hconfig : ProcessConfig vm capacity params) (h : ProcessInv H policy vm capacity params p)
    (ha : p.Allowed H policy vm (.arena action)) :
    ∃ p', p.perform H policy (.arena action) = some p' ∧ ProcessInv H policy vm capacity params p' := by
  obtain ⟨g, hg⟩ := h.heap.inv hdirect
  obtain ⟨hallowed, hserves, hspares⟩ := ha
  rw [h.pageSize] at hallowed
  obtain ⟨ret, calls, arena, hp, harena⟩ := hconfig.arena_step h.arena hallowed hserves
  refine ⟨⟨p.heap, arena⟩, ?_, h.next h.heap harena (fun _ => rfl) rfl fun id l hl a hal => ?_⟩
  · simp only [HeapProcess.perform, hp, Option.map_some]
  · have hbacked := h.backed id l hl a hal
    rcases granted_of_perform hp with ⟨range, part, rfl, hgranted⟩ | hkeep
    · obtain ⟨hpart, hapart⟩ := hspares range part rfl
      rw [hgranted]
      exact hbacked.remaining (hg.segmentInv id).pageSize_pos hpart fun c hc hpage =>
        hapart c hc ⟨id, l, hl, a, hal, hpage⟩
    · exact hbacked.mono hkeep

theorem perform_ok {action : ProcessAction} (hdirect : H.concurrency ≠ .threadLocal)
    (hconfig : ProcessConfig vm capacity params) (h : ProcessInv H policy vm capacity params p)
    (ha : p.Allowed H policy vm action) :
    ∃ p', p.perform H policy action = some p' ∧ ProcessInv H policy vm capacity params p' := by
  cases action with
  | allocate size answers => exact h.allocate_ok hdirect hconfig ha
  | deallocate x => exact h.deallocate_ok hdirect ha
  | store address value => exact h.store_ok hdirect hconfig ha
  | arena action => exact h.arena_ok hdirect hconfig ha

end ProcessInv

theorem create_big_checks {pageAlignment : Nat} {request : Nat → Nat} {queueMemory : SegmentId → Bool}
    {heap heap' : SimpleHeapPow2} {mem mem' : Memory}
    (h : SimpleHeapPow2.create H params pageAlignment request queueMemory heap mem = some (true, heap', mem')) :
    params.bigObjectLogicalPageSize ≠ 0 ∧ params.smallObjectLogicalPageSize ∣ params.bigObjectLogicalPageSize := by
  rw [SimpleHeapPow2.create] at h
  split at h
  · cases h
  · rename_i hchecks
    simp only [not_or] at hchecks
    obtain ⟨_, _, _, hbig, hmodulo⟩ := hchecks
    refine ⟨hbig, Nat.dvd_of_mod_eq_zero ?_⟩
    rw [← Arenas.modulo_eq]
    exact Nat.eq_zero_of_not_pos hmodulo

theorem dvd_heapBytes (h : params.smallObjectLogicalPageSize ∣ params.bigObjectLogicalPageSize) :
    params.smallObjectLogicalPageSize ∣ heapBytes params := by
  refine Nat.dvd_add (List.dvd_sum fun n hn => ?_) h
  obtain ⟨i, _, rfl⟩ := List.mem_map.mp hn
  exact Nat.dvd_mul_left _ _

theorem create_inv {arena arena' : ArenaSystem} {queueMemory : SegmentId → Bool} {heap : SimpleHeapPow2}
    {mem mem' : Memory} (hconfig : ProcessConfig vm capacity params)
    (harena : ArenaReachable policy vm capacity params.smallObjectLogicalPageSize arena)
    (hserves : HeapProcess.SystemServes policy vm arena (.allocate (heapBytes params) answers))
    (hp : arena.afterRequest policy answers (some (heapBytes params)) = some arena')
    (h : SimpleHeapPow2.create H params arena.arena.pageAlignment (arena.answers policy answers).request
      queueMemory {} mem = some (true, heap, mem')) :
    ProcessInv H policy vm capacity params ⟨⟨heap, mem', []⟩, arena'⟩ := by
  obtain ⟨k, hpower⟩ := hconfig.power
  obtain ⟨hbig, hdvd⟩ := create_big_checks h
  have hpos := hconfig.page_pos
  have hbound := hconfig.bytes_bound
  have hbytes : heapBytes params < 2^64 := by omega
  have hle : params.bigObjectLogicalPageSize ≤ heapBytes params := Nat.le_add_left _ _
  have hone := Nat.le_of_dvd (Nat.pos_of_ne_zero hbig) hdvd
  have hallowed : arena.Allowed params.smallObjectLogicalPageSize (.allocate (heapBytes params) answers) :=
    ⟨by omega, dvd_heapBytes hdvd, hbound⟩
  obtain ⟨ret, calls, arena₁, hstep, harena'⟩ := hconfig.arena_step harena hallowed hserves
  have hrequest := answers_request hstep
  simp only [ArenaSystem.afterRequest, hstep, Option.map_some, Option.some.injEq] at hp
  subst hp
  have hfresh : (arena.answers policy answers).request (heapBytes params) ≠ 0 →
      FreshFor params.smallObjectLogicalPageSize (fun _ => False)
        ((arena.answers policy answers).request (heapBytes params)) (heapBytes params) := by
    rw [hrequest]
    intro hret
    have hfresh := arena_answers_fresh hconfig.vm_pos hpos hconfig.vm_dvd hconfig.capacity_dvd
      hconfig.capacity_bound harena hallowed hstep (hserves ret calls arena₁ hstep) hret
    exact hfresh.mono fun c hc => hc.elim
  have houtcome := create_heap_spec hpower hbytes (fun hb => ⟨(hfresh hb).aligned, (hfresh hb).inside⟩) h
  obtain ⟨hne, g, hcreated⟩ := houtcome.created rfl
  rw [hrequest] at hne
  have hpage : ∀ id, (heap.segment id).logicalPageSize = params.smallObjectLogicalPageSize ∨
      (heap.segment id).logicalPageSize = params.bigObjectLogicalPageSize := by
    intro id
    cases id with
    | small i => exact .inl ((hcreated.inv.config.pageSize i).trans hcreated.pageSize)
    | big => exact .inr hcreated.bigPageSize
  refine ⟨.create hpower hconfig.growCoefficient hbytes hfresh h, harena', hcreated.pageSize, fun id => ?_,
    fun id l hl a ha => ?_⟩
  · rcases hpage id with heq | heq
    · exact ⟨heq ▸ dvd_rfl, by dsimp only; omega⟩
    · exact ⟨heq ▸ hdvd, by dsimp only; omega⟩
  · rw [(hcreated.inv.system id).eq_of_lists hl] at ha
    have hsize := (hcreated.inv.segmentInv id).pageSize_pos
    -- The first and the last byte of the page lie in the buffer.
    have hfirst := hcreated.used id a ⟨a, ha, le_rfl, by omega⟩
    have hlast := hcreated.used id (a + (heap.segment id).logicalPageSize - 1) ⟨a, ha, by omega, by omega⟩
    rw [hrequest] at hfirst hlast
    rw [granted_of_allocate hstep hne]
    refine ⟨⟨ret, heapBytes params⟩, List.mem_cons_self, hfirst.1, ?_⟩
    dsimp only
    omega

theorem ProcessReachable.inv (hdirect : H.concurrency ≠ .threadLocal) (hconfig : ProcessConfig vm capacity params)
    (h : ProcessReachable H policy vm capacity params p) : ProcessInv H policy vm capacity params p := by
  induction h with
  | create harena hserves hp h => exact create_inv hconfig harena hserves hp h
  | step _ ha hp ih =>
    obtain ⟨p', hp', hinv⟩ := ih.perform_ok hdirect hconfig ha
    cases hp.symm.trans hp'
    exact hinv

/-- What every run of a heap relies on is true of a heap over its arena: in every run the heap is safe,
all it uses is mapped, and what it gives back to the system was handed out by the arena. -/
theorem process_runs_safe (hdirect : H.concurrency ≠ .threadLocal) (hconfig : ProcessConfig vm capacity params)
    (h : ProcessReachable H policy vm capacity params p) :
    HeapReachable H p.heap ∧ ProcessSafe H policy vm p := by
  have hinv := h.inv hdirect hconfig
  obtain ⟨g, hg⟩ := hinv.heap.inv hdirect
  refine ⟨hinv.heap, hg.safe hdirect, fun c hc => hinv.mapped hconfig hc,
    fun x hx c hlo hhi => hinv.mapped_of_live hdirect hconfig hx hlo hhi, fun action ha => ?_⟩
  obtain ⟨p', hp, _⟩ := hinv.perform_ok hdirect hconfig ha
  rw [hp]
  rfl

end

/-- An arena with a cache of 16 pages at 1048576. -/
def sixteenPages : ArenaSystem where
  arena := ⟨4096, 4096, 1048576, 65536, 0⟩
  mapped := Library.AddressSpace.performAll (fun _ => false) [.map ⟨1048576, 69632⟩, .unmap ⟨1114112, 4096⟩]
  mappings := [⟨1048576, 69632⟩]
  granted := []

theorem reachable_sixteenPages : ArenaReachable .default 4096 65536 4096 sixteenPages := by
  have hcreate : Arena.create (allocateFromSystem .default (mapsAt 1048576)) 65536 4096
      ⟨4096, 4096, 0, 0, 0⟩ = (true, ⟨4096, 4096, 1048576, 65536, 0⟩,
        [.map ⟨1048576, 69632⟩, .unmap ⟨1114112, 4096⟩]) := by decide +kernel
  exact .create hcreate ⟨⟨by decide, by decide, fun _ _ => rfl⟩, trivial⟩

def newProcess : Option HeapProcess :=
  (sixteenPages.afterRequest .default (mapsAt 0) (some (heapBytes onePageEach))).bind fun arena =>
    (SimpleHeapPow2.create singleThreadHeap onePageEach 4096 (sixteenPages.answers .default (mapsAt 0)).request
      (fun _ => true) {} ⟨fun _ => 0, fun _ => {}, [], []⟩).bind fun (success, heap, mem) =>
        if success then some ⟨⟨heap, mem, []⟩, arena⟩ else none

def allocateOnce (p : HeapProcess) : Option HeapProcess :=
  p.perform singleThreadHeap .default (.allocate 100 (mapsAt 0))

def deallocateFirst (p : HeapProcess) : Option HeapProcess :=
  p.heap.live.head?.bind fun x => p.perform singleThreadHeap .default (.deallocate x)

def systemCalls (p : HeapProcess) : List Library.AddressSpace.SystemCall :=
  match p.heap.arenaRequest singleThreadHeap 100 with
  | none => []
  | some n => ((p.arena.perform .default (.allocate n (mapsAt 0))).map fun r => r.2.1).getD []

theorem reachable_newProcess {p : HeapProcess} (h : newProcess = some p) :
    ProcessReachable singleThreadHeap .default 4096 65536 onePageEach p := by
  obtain ⟨arena, hp, h⟩ := Option.bind_eq_some_iff.mp h
  obtain ⟨⟨success, heap, mem⟩, hcreate, h⟩ := Option.bind_eq_some_iff.mp h
  have hcalls : (sixteenPages.perform .default (.allocate (heapBytes onePageEach) (mapsAt 0))).map
      (fun r => r.2.1) = some [] := by decide +kernel
  cases success with
  | false => cases h
  | true =>
    cases h
    refine .create reachable_sixteenPages (fun ret calls sys' hp' => ?_) hp hcreate
    rw [hp'] at hcalls
    cases hcalls
    trivial

theorem ProcessReachable.allocate {params : HeapCreationParams} {vm capacity : Nat} {p p' : HeapProcess}
    (h : ProcessReachable singleThreadHeap .default vm capacity params p) (hcalls : systemCalls p = [])
    (hp : allocateOnce p = some p') : ProcessReachable singleThreadHeap .default vm capacity params p' := by
  have ha : p.Allowed singleThreadHeap .default vm (.allocate 100 (mapsAt 0)) := by
    intro n hn ret calls sys' hs
    simp only [systemCalls, hn, hs, Option.map_some, Option.getD_some] at hcalls
    rw [hcalls]
    trivial
  exact h.step ha hp

theorem ProcessReachable.deallocate {params : HeapCreationParams} {vm capacity : Nat} {p p' : HeapProcess}
    (h : ProcessReachable singleThreadHeap .default vm capacity params p)
    (hp : deallocateFirst p = some p') :
    ProcessReachable singleThreadHeap .default vm capacity params p' := by
  obtain ⟨x, hx, hp⟩ := Option.bind_eq_some_iff.mp hp
  have ha : p.Allowed singleThreadHeap .default vm (.deallocate x) := List.mem_of_head? hx
  exact h.step ha hp

theorem onePageEach_config : ProcessConfig 4096 65536 onePageEach :=
  ⟨⟨12, rfl⟩, rfl, by decide, by decide, by decide, by decide, by decide⟩

/-- The page at 1060864 was unmapped, and the one at 1089536 has taken its place. -/
theorem process_runs_safe_of_refill : ∃ p : HeapProcess,
    ProcessReachable singleThreadHeap .default 4096 65536 onePageEach p ∧
    (p.heap.live = [⟨1093440, 100, .small 3, 1089536⟩] ∧ p.arena.mapped 1060864 = false) ∧
    HeapReachable singleThreadHeap p.heap ∧ ProcessSafe singleThreadHeap .default 4096 p := by
  have hstate : (((newProcess.bind allocateOnce).bind deallocateFirst).bind allocateOnce).map
      (fun p => (p.heap.live, p.arena.mapped 1060864)) =
        some ([⟨1093440, 100, .small 3, 1089536⟩], false) := by decide +kernel
  have hcalls : newProcess.map systemCalls = some [] ∧
      ((newProcess.bind allocateOnce).bind deallocateFirst).map systemCalls = some [] := by decide +kernel
  obtain ⟨p, hp, hstate⟩ := Option.map_eq_some_iff.mp hstate
  obtain ⟨p₂, hp₂, hlast⟩ := Option.bind_eq_some_iff.mp hp
  rw [hp₂] at hcalls
  obtain ⟨p₁, hp₁, hsecond⟩ := Option.bind_eq_some_iff.mp hp₂
  obtain ⟨p₀, hp₀, hfirst⟩ := Option.bind_eq_some_iff.mp hp₁
  rw [hp₀] at hcalls
  simp only [Option.map_some, Option.some.injEq] at hcalls
  obtain ⟨hlive, hmapped⟩ := Prod.mk.inj hstate
  have hrun := (((reachable_newProcess hp₀).allocate hcalls.1 hfirst).deallocate hsecond).allocate
    hcalls.2 hlast
  exact ⟨p, hrun, ⟨hlive, hmapped⟩, process_runs_safe (by decide) onePageEach_config hrun⟩

end Metamalloc.Heaps
