import Metamalloc.Allocator.ScalableAllocator

/-! The places of the metadata buffer: which heap objects are constructed, handed to
threads and destroyed. -/
namespace Metamalloc.Allocator
open Library.Word64 Pages Segments Heaps

namespace ScalableAllocator
variable {A : AllocatorType} {a a' a₁ : ScalableAllocator} {mem mem' mem₁ : Memory} {thread : Nat}
  {heap : Option Nat} {answers : HeapAnswers}

def Admitted (thread : Nat) (a : ScalableAllocator) : Prop :=
  a.threadLocalStorage thread = none ∧ a.activeLocalHeapCount + 1 < a.maxThreadLocalHeapCount

instance (thread : Nat) (a : ScalableAllocator) : Decidable (Admitted thread a) :=
  inferInstanceAs (Decidable (_ ∧ _))

def constructedFor (thread : Nat) (a : ScalableAllocator) : List Nat :=
  if Admitted thread a ∧ a.cachedThreadLocalHeapCount ≤ a.activeLocalHeapCount then
    [a.activeLocalHeapCount]
  else []

/-- The heap a call of the thread works on, once every heap that is constructed is created. -/
def heapFor (thread : Nat) (a : ScalableAllocator) : Option Nat :=
  if Admitted thread a then some a.activeLocalHeapCount else a.threadLocalStorage thread

def takePlace (thread : Nat) (a : ScalableAllocator) : ScalableAllocator :=
  if Admitted thread a then
    { a with
      activeLocalHeapCount := a.activeLocalHeapCount + 1
      threadLocalStorage := Function.update a.threadLocalStorage thread (some a.activeLocalHeapCount) }
  else a

/-- The counters of the places and the heaps the threads have stored. -/
structure SameSlots (a a' : ScalableAllocator) : Prop where
  active : a'.activeLocalHeapCount = a.activeLocalHeapCount
  max : a'.maxThreadLocalHeapCount = a.maxThreadLocalHeapCount
  cached : a'.cachedThreadLocalHeapCount = a.cachedThreadLocalHeapCount
  storage : a'.threadLocalStorage = a.threadLocalStorage

theorem SameSlots.refl (a : ScalableAllocator) : SameSlots a a := ⟨rfl, rfl, rfl, rfl⟩

theorem SameSlots.trans {a'' : ScalableAllocator} (h : SameSlots a a') (h' : SameSlots a' a'') :
    SameSlots a a'' :=
  ⟨h'.active.trans h.active, h'.max.trans h.max, h'.cached.trans h.cached, h'.storage.trans h.storage⟩

theorem sameSlots_setLocalHeap (a : ScalableAllocator) (i : Nat) (heap : SimpleHeapPow2) :
    SameSlots a (a.setLocalHeap i heap) := ⟨rfl, rfl, rfl, rfl⟩

theorem sameSlots_createLocalHeap {index : Nat}
    (h : createLocalHeap A answers index a mem = some (heap, a', mem')) : SameSlots a a' := by
  obtain ⟨⟨success, heap', mem₁⟩, _, he⟩ := Option.map_eq_some_iff.mp h
  simp only [Prod.mk.injEq] at he
  obtain ⟨_, rfl, _⟩ := he
  exact sameSlots_setLocalHeap ..

/-- A heap that is created is the one at its place, where nothing was made before. -/
theorem createLocalHeap_created {index i : Nat}
    (h : createLocalHeap A answers index a mem = some (some i, a', mem')) :
    i = index ∧ ∃ heap, a' = a.setLocalHeap index heap ∧
      SimpleHeapPow2.create A.localHeap a.localHeapCreationParams a.arenaPageAlignment answers.request
        answers.queueMemory {} mem = some (true, heap, mem') := by
  obtain ⟨⟨success, heap, mem₁⟩, hcreate, he⟩ := Option.map_eq_some_iff.mp h
  simp only [Prod.mk.injEq] at he
  obtain ⟨hi, rfl, rfl⟩ := he
  cases success with
  | true => exact ⟨(Option.some.inj hi).symm, heap, rfl, hcreate⟩
  | false => cases hi

theorem createLocalHeap_eq_some {index i : Nat}
    (h : createLocalHeap A answers index a mem = some (some i, a', mem')) : i = index :=
  (createLocalHeap_created h).1

theorem sameSlots_createCachedHeaps {answers : Nat → HeapAnswers} {slots : List Nat} {ok : Bool}
    (h : createCachedHeaps A answers slots a mem = some (ok, a', mem')) : SameSlots a a' := by
  induction slots generalizing a mem with
  | nil =>
    rw [createCachedHeaps] at h
    cases h
    exact .refl _
  | cons i slots ih =>
    rw [createCachedHeaps] at h
    split at h
    · cases h
    · rename_i a₁ mem₁ hc
      cases h
      exact sameSlots_createLocalHeap hc
    · rename_i a₁ mem₁ hc
      exact (sameSlots_createLocalHeap hc).trans (ih h)

/-- The heaps due are created one at each of the given places, and the other places are left alone. -/
theorem createCachedHeaps_created {answers : Nat → HeapAnswers} {slots : List Nat} (hnodup : slots.Nodup)
    (h : createCachedHeaps A answers slots a mem = some (true, a', mem')) :
    ∃ heaps, a' = { a with localHeaps := heaps } ∧ (∀ i, i ∉ slots → heaps i = a.localHeaps i) ∧
      ∀ i ∈ slots, ∃ m m', SimpleHeapPow2.create A.localHeap a.localHeapCreationParams a.arenaPageAlignment
        (answers i).request (answers i).queueMemory {} m = some (true, heaps i, m') := by
  induction slots generalizing a mem with
  | nil =>
    rw [createCachedHeaps] at h
    cases h
    exact ⟨_, rfl, fun _ _ => rfl, by simp⟩
  | cons i slots ih =>
    obtain ⟨hi, hrest⟩ := List.nodup_cons.mp hnodup
    rw [createCachedHeaps] at h
    split at h
    · cases h
    · cases h
    · rename_i j a₁ mem₁ hc
      obtain ⟨rfl, heap, rfl, hcreate⟩ := createLocalHeap_created hc
      obtain ⟨heaps, rfl, hothers, hcreated⟩ := ih hrest h
      refine ⟨heaps, rfl, fun k hk => ?_, fun k hk => ?_⟩
      · rw [List.mem_cons, not_or] at hk
        rw [hothers k hk.2]
        exact Function.update_of_ne hk.1 ..
      · obtain rfl | hk := List.mem_cons.mp hk
        · have hself : heaps k = heap := (hothers k hi).trans (Function.update_self ..)
          exact ⟨mem, mem₁, hself ▸ hcreate⟩
        · exact hcreated k hk

/-- At most one heap is due to a thread, and its creation is the whole of the call. -/
theorem createCachedHeaps_constructedFor
    (h : createCachedHeaps A (fun _ => answers) (constructedFor thread a) a mem = some (true, a₁, mem₁)) :
    ∃ heaps, a₁ = { a with localHeaps := heaps } ∧
      (∀ i, i ∉ constructedFor thread a → heaps i = a.localHeaps i) ∧
      ∀ i ∈ constructedFor thread a, SimpleHeapPow2.create A.localHeap a.localHeapCreationParams
        a.arenaPageAlignment answers.request answers.queueMemory {} mem = some (true, heaps i, mem₁) := by
  have hnodup : (constructedFor thread a).Nodup := by
    rw [constructedFor]
    split <;> simp
  obtain ⟨heaps, rfl, hothers, _⟩ := createCachedHeaps_created hnodup h
  refine ⟨heaps, rfl, hothers, fun i hi => ?_⟩
  rw [constructedFor] at h hi
  split at hi
  · rename_i hdue
    obtain rfl := List.mem_singleton.mp hi
    rw [if_pos hdue, createCachedHeaps] at h
    split at h
    · cases h
    · cases h
    · rename_i j a₂ mem₂ hc
      rw [createCachedHeaps] at h
      obtain ⟨rfl, heap, rfl, hcreate⟩ := createLocalHeap_created hc
      cases h
      rw [Function.update_self]
      exact hcreate
  · cases hi

theorem SameSlots.admitted_iff (h : SameSlots a a') : Admitted thread a' ↔ Admitted thread a := by
  rw [Admitted, Admitted, h.storage, h.active, h.max]

theorem SameSlots.takePlace (h : SameSlots a a') :
    SameSlots (takePlace thread a) (takePlace thread a') := by
  rw [ScalableAllocator.takePlace, ScalableAllocator.takePlace]
  by_cases had : Admitted thread a
  · rw [if_pos had, if_pos (h.admitted_iff.mpr had)]
    refine ⟨congrArg (· + 1) h.active, h.max, h.cached, ?_⟩
    dsimp only
    rw [h.storage, h.active]
  · rw [if_neg had, if_neg (mt h.admitted_iff.mp had)]
    exact h

/-- A call for the heap of a thread constructs the heaps due, and gives the thread its place. -/
theorem getThreadLocalHeap_of_created
    (h : createCachedHeaps A (fun _ => answers) (constructedFor thread a) a mem = some (true, a₁, mem₁)) :
    getThreadLocalHeap A answers thread a mem = some (heapFor thread a, takePlace thread a₁, mem₁) := by
  have hsame := sameSlots_createCachedHeaps h
  have hadmitted : Admitted thread a₁ ↔ Admitted thread a := hsame.admitted_iff
  rw [constructedFor] at h
  rw [getThreadLocalHeap, heapFor, takePlace]
  by_cases had : Admitted thread a
  · obtain ⟨hstorage, hroom⟩ := had
    rw [if_pos (show Admitted thread a from ⟨hstorage, hroom⟩), if_pos (hadmitted.mpr ⟨hstorage, hroom⟩),
      hstorage]
    dsimp only
    rw [if_neg (Nat.not_le_of_lt hroom)]
    by_cases hlazy : a.cachedThreadLocalHeapCount ≤ a.activeLocalHeapCount
    · rw [if_pos ⟨⟨hstorage, hroom⟩, hlazy⟩, createCachedHeaps] at h
      rw [if_pos hlazy]
      split at h
      · cases h
      · cases h
      · rename_i i a₂ mem₂ hc
        rw [createCachedHeaps] at h
        cases h
        rw [hc, createLocalHeap_eq_some hc, Option.map_some, hsame.active]
    · rw [if_neg fun hc => hlazy hc.2, createCachedHeaps] at h
      rw [if_neg hlazy]
      cases h
      rfl
  · rw [if_neg fun hc => had hc.1, createCachedHeaps] at h
    rw [if_neg had, if_neg (mt hadmitted.mp had)]
    cases h
    cases hstorage : a.threadLocalStorage thread with
    | some i => rfl
    | none =>
      dsimp only
      rw [if_pos (Nat.not_lt.mp fun hroom => had ⟨hstorage, hroom⟩)]

theorem takePlace_localHeaps : (takePlace thread a).localHeaps = a.localHeaps := by
  rw [takePlace]
  split <;> rfl

/-- Whatever a call has done, it has worked on the central heap and on the heap at this place only. -/
structure OnlyHeapAt (place : Option Nat) (a a' : ScalableAllocator) : Prop where
  frame : ∃ central heaps, a' = { a with centralHeap := central, localHeaps := heaps }
  others : ∀ i, place ≠ some i → a'.localHeaps i = a.localHeaps i

theorem OnlyHeapAt.refl (place : Option Nat) (a : ScalableAllocator) : OnlyHeapAt place a a :=
  ⟨⟨_, _, rfl⟩, fun _ _ => rfl⟩

theorem OnlyHeapAt.trans {a'' : ScalableAllocator} {place : Option Nat} (h : OnlyHeapAt place a a')
    (h' : OnlyHeapAt place a' a'') : OnlyHeapAt place a a'' := by
  obtain ⟨⟨_, _, rfl⟩, hothers⟩ := h
  obtain ⟨⟨_, _, rfl⟩, hothers'⟩ := h'
  exact ⟨⟨_, _, rfl⟩, fun i hi => (hothers' i hi).trans (hothers i hi)⟩

theorem OnlyHeapAt.sameSlots {place : Option Nat} (h : OnlyHeapAt place a a') : SameSlots a a' := by
  obtain ⟨⟨_, _, rfl⟩, _⟩ := h
  exact ⟨rfl, rfl, rfl, rfl⟩

theorem onlyHeapAt_setLocalHeap (a : ScalableAllocator) (i : Nat) (heap : SimpleHeapPow2) :
    OnlyHeapAt (some i) a (a.setLocalHeap i heap) :=
  ⟨⟨_, _, rfl⟩, fun _ hj => Function.update_of_ne (fun he => hj (congrArg some he.symm)) ..⟩

theorem onlyHeapAt_onLocalHeap {call : SimpleHeapPow2 → Memory → Option (Nat × SimpleHeapPow2 × Memory)}
    {i ret : Nat} (h : onLocalHeap call i (a, mem) = some (ret, a', mem')) : OnlyHeapAt (some i) a a' := by
  obtain ⟨⟨ret', heap, mem₁⟩, _, he⟩ := Option.map_eq_some_iff.mp h
  simp only [Prod.mk.injEq] at he
  obtain ⟨_, rfl, _⟩ := he
  exact onlyHeapAt_setLocalHeap ..

theorem onlyHeapAt_onCentralHeap {call : SimpleHeapPow2 → Memory → Option (Nat × SimpleHeapPow2 × Memory)}
    {place : Option Nat} {ret : Nat} (h : onCentralHeap call (a, mem) = some (ret, a', mem')) :
    OnlyHeapAt place a a' := by
  obtain ⟨⟨ret', heap, mem₁⟩, _, he⟩ := Option.map_eq_some_iff.mp h
  simp only [Prod.mk.injEq] at he
  obtain ⟨_, rfl, _⟩ := he
  exact ⟨⟨_, _, rfl⟩, fun _ _ => rfl⟩

theorem onlyHeapAt_allocateFrom
    {call : HeapType → SimpleHeapPow2 → Memory → Option (Nat × SimpleHeapPow2 × Memory)} {ret : Nat}
    {central : Bool} (hget : getThreadLocalHeap A answers thread a mem = some (heap, a₁, mem₁))
    (h : allocateFrom A call answers thread a mem = some (ret, central, a', mem')) : OnlyHeapAt heap a₁ a' := by
  rw [allocateFrom, hget] at h
  have hcentral : ∀ a₂ mem₂, (onCentralHeap (call A.centralHeap) (a₂, mem₂)).map
      (fun (ret, s) => (ret, true, s)) = some (ret, central, a', mem') → OnlyHeapAt heap a₂ a' := by
    intro a₂ mem₂ he
    obtain ⟨⟨ret', a₃, mem₃⟩, hc, he⟩ := Option.map_eq_some_iff.mp he
    cases he
    exact onlyHeapAt_onCentralHeap hc
  cases heap with
  | none => exact hcentral a₁ mem₁ h
  | some i =>
    dsimp only [Option.map_some] at h
    rw [failover] at h
    split at h
    · cases h
    · rename_i ret' s hlocal
      obtain ⟨a₂, mem₂⟩ := s
      have honly := onlyHeapAt_onLocalHeap hlocal
      split at h
      · exact honly.trans (hcentral a₂ mem₂ h)
      · cases h
        exact honly

theorem sameSlots_allocateFrom
    {call : HeapType → SimpleHeapPow2 → Memory → Option (Nat × SimpleHeapPow2 × Memory)} {ret : Nat}
    {central : Bool} (hget : getThreadLocalHeap A answers thread a mem = some (heap, a₁, mem₁))
    (h : allocateFrom A call answers thread a mem = some (ret, central, a', mem')) : SameSlots a₁ a' :=
  (onlyHeapAt_allocateFrom hget h).sameSlots

theorem onlyHeapAt_deallocate {ptr : Nat} (h : deallocate A ptr a mem = some (a', mem')) :
    OnlyHeapAt (a.owner ptr) a a' := by
  rw [deallocate] at h
  split at h
  · cases h
    exact .refl _ _
  · split at h <;> rename_i howner <;> obtain ⟨⟨heap, mem₁⟩, _, he⟩ := Option.map_eq_some_iff.mp h <;> cases he
    · rw [howner]
      exact onlyHeapAt_setLocalHeap ..
    · exact ⟨⟨_, _, rfl⟩, fun _ _ => rfl⟩

theorem sameSlots_deallocate {ptr : Nat} (h : deallocate A ptr a mem = some (a', mem')) : SameSlots a a' :=
  (onlyHeapAt_deallocate h).sameSlots

theorem owner_lt {ptr i : Nat} (h : a.owner ptr = some i) : i < a.activeLocalHeapCount :=
  List.mem_range.mp (List.mem_of_find?_eq_some h)

theorem create_eq_true {params : CreationParams} {answers : CreationAnswers}
    (h : create A params answers a mem = some (true, a', mem')) :
    a'.maxThreadLocalHeapCount = params.metadataBufferSize / A.localHeapSize ∧
    0 < a'.maxThreadLocalHeapCount ∧ a'.cachedThreadLocalHeapCount ≤ a'.maxThreadLocalHeapCount ∧
    a'.activeLocalHeapCount = a.activeLocalHeapCount ∧ a'.threadLocalStorage = a.threadLocalStorage := by
  obtain ⟨heap, mem₁, cached, _, hmax, hcached, hc⟩ := create_succeeded h
  have hsame := sameSlots_createCachedHeaps hc
  rw [hsame.max, hsame.cached]
  exact ⟨rfl, Nat.pos_of_ne_zero hmax, hcached ▸ Nat.min_le_left _ _, hsame.active, hsame.storage⟩

/-- What a creation leaves behind on a heap object that was just constructed. -/
def NewHeap (A : AllocatorType) (params : CreationParams) (heap : SimpleHeapPow2) : Prop :=
  ∃ (answers : HeapAnswers) (mem mem' : Memory), SimpleHeapPow2.create A.localHeap params.localHeap
    params.arenaPageAlignment answers.request answers.queueMemory {} mem = some (true, heap, mem')

theorem create_newHeaps {params : CreationParams} {answers : CreationAnswers}
    (h : create A params answers a mem = some (true, a', mem')) :
    a'.localHeapCreationParams = params.localHeap ∧ a'.arenaPageAlignment = params.arenaPageAlignment ∧
    (∀ i < a'.cachedThreadLocalHeapCount, NewHeap A params (a'.localHeaps i)) ∧
    ∀ i, a'.cachedThreadLocalHeapCount ≤ i → a'.localHeaps i = a.localHeaps i := by
  obtain ⟨heap, mem₁, cached, _, _, _, hc⟩ := create_succeeded h
  obtain ⟨heaps, rfl, hothers, hcreated⟩ := createCachedHeaps_created List.nodup_range hc
  refine ⟨rfl, rfl, fun i hi => ?_, fun i hi => ?_⟩
  · obtain ⟨m, m', hcreate⟩ := hcreated i (List.mem_range.mpr hi)
    exact ⟨answers.cachedHeaps i, m, m', hcreate⟩
  · exact hothers i fun hmem => Nat.not_lt_of_le hi (List.mem_range.mp hmem)

/-- The destructor of the heap object that was at the place when the destruction began. -/
def destroyAt (A : AllocatorType) (heaps : Nat → SimpleHeapPow2) (r : ScalableAllocator × Memory) (i : Nat) :
    Option (ScalableAllocator × Memory) :=
  (SimpleHeapPow2.destroy A.localHeap (heaps i) r.2).map fun d => (r.1.setLocalHeap i d.1, d.2)

/-- A destruction that comes to no place twice meets every heap as it was before. -/
theorem destroyLocalHeaps_eq {heaps : Nat → SimpleHeapPow2} {slots : List Nat} (hnodup : slots.Nodup)
    (hheaps : ∀ i ∈ slots, a.localHeaps i = heaps i) :
    destroyLocalHeaps A slots a mem = slots.foldlM (destroyAt A heaps) (a, mem) := by
  induction slots generalizing a mem with
  | nil => rfl
  | cons i slots ih =>
    obtain ⟨hi, hrest⟩ := List.nodup_cons.mp hnodup
    rw [destroyLocalHeaps, List.foldlM_cons, destroyAt, hheaps i List.mem_cons_self]
    cases hd : SimpleHeapPow2.destroy A.localHeap (heaps i) mem with
    | none => rfl
    | some d =>
      refine ih hrest fun j hj => ?_
      have hne : j ≠ i := fun he => hi (he ▸ hj)
      exact (Function.update_of_ne hne ..).trans (hheaps j (List.mem_cons_of_mem _ hj))

end ScalableAllocator

open ScalableAllocator

/-- The allocator with the record of the heaps that were created, each with its place and as it
was then, and of the heaps the threads received in the order of their calls. -/
structure SlotState where
  allocator : ScalableAllocator
  memory : Memory
  constructed : List (Nat × SimpleHeapPow2)
  received : List (Nat × Option Nat)

def heapsAt (places : List Nat) (a : ScalableAllocator) : List (Nat × SimpleHeapPow2) :=
  places.map fun i => (i, a.localHeaps i)

/-- The states after a successful `create`, under calls of any threads in any order in which
every heap that is constructed can be created. -/
inductive SlotRun (A : AllocatorType) (params : CreationParams) : SlotState → Prop
  | create {count : Nat} {answers : CreationAnswers} {mem mem' : Memory} {a : ScalableAllocator}
      (h : create A params answers (setThreadLocalHeapCacheCount count {}) mem = some (true, a, mem')) :
      SlotRun A params ⟨a, mem', heapsAt (List.range a.cachedThreadLocalHeapCount) a, []⟩
  | allocate {s : SlotState} (hs : SlotRun A params s)
      {call : HeapType → SimpleHeapPow2 → Memory → Option (Nat × SimpleHeapPow2 × Memory)}
      {answers : HeapAnswers} {thread : Nat} {heap : Option Nat} {a₁ a₂ a : ScalableAllocator}
      {mem₁ mem₂ mem : Memory} {ret : Nat} {central : Bool}
      (hcreated : createCachedHeaps A (fun _ => answers) (constructedFor thread s.allocator) s.allocator
        s.memory = some (true, a₁, mem₁))
      (hget : getThreadLocalHeap A answers thread s.allocator s.memory = some (heap, a₂, mem₂))
      (h : allocateFrom A call answers thread s.allocator s.memory = some (ret, central, a, mem)) :
      SlotRun A params ⟨a, mem, s.constructed ++ heapsAt (constructedFor thread s.allocator) a₂,
        s.received ++ [(thread, heap)]⟩
  | deallocate {s : SlotState} (hs : SlotRun A params s) {ptr : Nat} {a : ScalableAllocator} {mem : Memory}
      (h : deallocate A ptr s.allocator s.memory = some (a, mem)) :
      SlotRun A params { s with allocator := a, memory := mem }
  | exit {s : SlotState} (hs : SlotRun A params s) {thread : Nat} {a : ScalableAllocator} {mem : Memory}
      (h : threadSpecificDestructor thread s.allocator s.memory = some (a, mem)) :
      SlotRun A params { s with allocator := a, memory := mem }

structure SlotInv (A : AllocatorType) (params : CreationParams) (s : SlotState) : Prop where
  params_eq : s.allocator.localHeapCreationParams = params.localHeap
  alignment_eq : s.allocator.arenaPageAlignment = params.arenaPageAlignment
  max_eq : s.allocator.maxThreadLocalHeapCount = params.metadataBufferSize / A.localHeapSize
  active_lt : s.allocator.activeLocalHeapCount < s.allocator.maxThreadLocalHeapCount
  cached_le : s.allocator.cachedThreadLocalHeapCount ≤ s.allocator.maxThreadLocalHeapCount
  /-- The larger of the two counters bounds the places at which there is a heap. -/
  constructed_eq : s.constructed.map Prod.fst =
    List.range (max s.allocator.cachedThreadLocalHeapCount s.allocator.activeLocalHeapCount)
  created : ∀ i heap, (i, heap) ∈ s.constructed → NewHeap A params heap
  /-- A heap is as its creation left it until a thread takes its place. -/
  waiting : ∀ i heap, (i, heap) ∈ s.constructed → s.allocator.activeLocalHeapCount ≤ i →
    s.allocator.localHeaps i = heap
  untouched : ∀ i, max s.allocator.cachedThreadLocalHeapCount s.allocator.activeLocalHeapCount ≤ i →
    s.allocator.localHeaps i = {}
  received_lt : ∀ thread i, (thread, some i) ∈ s.received → i < s.allocator.activeLocalHeapCount
  received_inj : ∀ thread thread' i, (thread, some i) ∈ s.received → (thread', some i) ∈ s.received →
    thread = thread'
  storage : ∀ thread i, s.allocator.threadLocalStorage thread = some i → (thread, some i) ∈ s.received

section
variable {A : AllocatorType} {params : CreationParams} {s : SlotState} {a a₁ : ScalableAllocator}
  {mem mem₁ : Memory} {thread : Nat} {answers : HeapAnswers}

theorem mem_heapsAt {places : List Nat} {i : Nat} {heap : SimpleHeapPow2} :
    (i, heap) ∈ heapsAt places a ↔ i ∈ places ∧ a.localHeaps i = heap := by
  simp only [heapsAt, List.mem_map, Prod.mk.injEq]
  constructor
  · rintro ⟨j, hj, rfl, rfl⟩
    exact ⟨hj, rfl⟩
  · rintro ⟨hi, rfl⟩
    exact ⟨i, hi, rfl, rfl⟩

theorem map_fst_heapsAt {places : List Nat} : (heapsAt places a).map Prod.fst = places := by
  rw [heapsAt, List.map_map]
  exact List.map_id _

/-- A call that has worked on the heap of an active place. -/
theorem SlotInv.of_onlyHeapAt {place : Option Nat} (h : SlotInv A params s) (honly : OnlyHeapAt place s.allocator a)
    (hplace : ∀ i, place = some i → i < s.allocator.activeLocalHeapCount) :
    SlotInv A params { s with allocator := a, memory := mem } := by
  obtain ⟨⟨central, heaps, rfl⟩, hothers⟩ := honly
  have hkept : ∀ i, s.allocator.activeLocalHeapCount ≤ i → heaps i = s.allocator.localHeaps i :=
    fun i hi => hothers i fun he => Nat.not_lt_of_le hi (hplace i he)
  exact ⟨h.params_eq, h.alignment_eq, h.max_eq, h.active_lt, h.cached_le, h.constructed_eq, h.created,
    fun i heap hi ha => (hkept i ha).trans (h.waiting i heap hi ha),
    fun i hi => (hkept i (le_trans (le_max_right ..) hi)).trans (h.untouched i hi),
    h.received_lt, h.received_inj, h.storage⟩

/-- A thread that is admitted takes the first place no thread has. -/
theorem SlotInv.takesPlace {heaps : Nat → SimpleHeapPow2} (h : SlotInv A params s)
    (had : Admitted thread s.allocator)
    (hothers : ∀ i, i ∉ constructedFor thread s.allocator → heaps i = s.allocator.localHeaps i)
    (hcreated : ∀ i ∈ constructedFor thread s.allocator, NewHeap A params (heaps i)) :
    SlotInv A params ⟨takePlace thread { s.allocator with localHeaps := heaps }, mem,
      s.constructed ++ heapsAt (constructedFor thread s.allocator) { s.allocator with localHeaps := heaps },
      s.received ++ [(thread, heapFor thread s.allocator)]⟩ := by
  have hmem : ∀ t i, (t, some i) ∈ s.received ++ [(thread, some s.allocator.activeLocalHeapCount)] →
      (t, some i) ∈ s.received ∨ t = thread ∧ i = s.allocator.activeLocalHeapCount := by
    intro t i hi
    rcases List.mem_append.mp hi with hi | hi
    · exact .inl hi
    · simp only [List.mem_singleton, Prod.mk.injEq, Option.some.injEq] at hi
      exact .inr hi
  have hsub : ∀ i ∈ constructedFor thread s.allocator, i = s.allocator.activeLocalHeapCount := by
    intro i hi
    rw [constructedFor] at hi
    split at hi
    · exact List.mem_singleton.mp hi
    · cases hi
  rw [takePlace, if_pos (show Admitted thread { s.allocator with localHeaps := heaps } from had), heapFor,
    if_pos had]
  refine ⟨h.params_eq, h.alignment_eq, h.max_eq, had.2, h.cached_le, ?_, ?_, ?_, ?_, ?_, ?_, ?_⟩
  · rw [List.map_append, map_fst_heapsAt, h.constructed_eq, constructedFor]
    dsimp only
    by_cases hlazy : s.allocator.cachedThreadLocalHeapCount ≤ s.allocator.activeLocalHeapCount
    · rw [if_pos ⟨had, hlazy⟩, max_eq_right hlazy, max_eq_right (Nat.le_succ_of_le hlazy), List.range_succ]
    · rw [if_neg fun hc => hlazy hc.2, List.append_nil, max_eq_left (by omega), max_eq_left (by omega)]
  · intro i heap hi
    rcases List.mem_append.mp hi with hi | hi
    · exact h.created i heap hi
    · obtain ⟨hdue, rfl⟩ := mem_heapsAt.mp hi
      exact hcreated i hdue
  · intro i heap hi ha
    rcases List.mem_append.mp hi with hi | hi
    · have hactive : s.allocator.activeLocalHeapCount < i := ha
      rw [← h.waiting i heap hi hactive.le]
      exact hothers i fun hdue => absurd (hsub i hdue) (by omega)
    · exact (mem_heapsAt.mp hi).2
  · intro i hi
    have hi : max s.allocator.cachedThreadLocalHeapCount (s.allocator.activeLocalHeapCount + 1) ≤ i := hi
    exact (hothers i fun hdue => absurd (hsub i hdue) (by omega)).trans (h.untouched i (by omega))
  · intro t i hi
    rcases hmem t i hi with hi | ⟨_, rfl⟩
    · exact Nat.lt_succ_of_lt (h.received_lt t i hi)
    · exact Nat.lt_succ_self _
  · intro t t' i hi hi'
    rcases hmem t i hi with hold | ⟨ht, hi⟩ <;> rcases hmem t' i hi' with hold' | ⟨ht', hi'⟩
    · exact h.received_inj t t' i hold hold'
    · exact absurd (h.received_lt t i hold) (by omega)
    · exact absurd (h.received_lt t' i hold') (by omega)
    · exact ht.trans ht'.symm
  · intro t i hi
    dsimp only at hi
    by_cases ht : t = thread
    · rw [ht, Function.update_self] at hi
      cases hi
      rw [ht]
      exact List.mem_append_right _ (List.mem_singleton.mpr rfl)
    · rw [Function.update_of_ne ht] at hi
      exact List.mem_append_left _ (h.storage t i hi)

/-- A thread that has a heap receives it again, and one without a place receives none. -/
theorem SlotInv.repeat_call (h : SlotInv A params s) (had : ¬ Admitted thread s.allocator) :
    SlotInv A params { s with received := s.received ++ [(thread, heapFor thread s.allocator)] } := by
  have hmem : ∀ t i, (t, some i) ∈ s.received ++ [(thread, s.allocator.threadLocalStorage thread)] →
      (t, some i) ∈ s.received := by
    intro t i hi
    rcases List.mem_append.mp hi with hi | hi
    · exact hi
    · simp only [List.mem_singleton, Prod.mk.injEq] at hi
      obtain ⟨rfl, hi⟩ := hi
      exact h.storage t i hi.symm
  rw [heapFor, if_neg had]
  exact { h with
    received_lt := fun t i hi => h.received_lt t i (hmem t i hi)
    received_inj := fun t t' i hi hi' => h.received_inj t t' i (hmem t i hi) (hmem t' i hi')
    storage := fun t i hi => List.mem_append_left _ (h.storage t i hi) }

theorem SlotInv.getThreadLocalHeap (h : SlotInv A params s)
    (hcreated : createCachedHeaps A (fun _ => answers) (constructedFor thread s.allocator) s.allocator
      s.memory = some (true, a₁, mem₁)) :
    SlotInv A params ⟨takePlace thread a₁, mem₁,
      s.constructed ++ heapsAt (constructedFor thread s.allocator) (takePlace thread a₁),
      s.received ++ [(thread, heapFor thread s.allocator)]⟩ := by
  rw [heapsAt, takePlace_localHeaps]
  by_cases had : Admitted thread s.allocator
  · obtain ⟨heaps, rfl, hothers, hnew⟩ := createCachedHeaps_constructedFor hcreated
    rw [h.params_eq, h.alignment_eq] at hnew
    exact h.takesPlace had hothers fun i hi => ⟨answers, _, _, hnew i hi⟩
  · rw [constructedFor, if_neg fun hc => had hc.1, createCachedHeaps] at hcreated
    cases hcreated
    rw [constructedFor, if_neg fun hc => had hc.1, takePlace, if_neg had, List.map_nil, List.append_nil]
    exact h.repeat_call had

theorem SlotInv.exit (h : SlotInv A params s)
    (he : threadSpecificDestructor thread s.allocator s.memory = some (a, mem)) :
    SlotInv A params { s with allocator := a, memory := mem } := by
  rw [threadSpecificDestructor] at he
  split at he
  · cases he
    exact { h with }
  · rename_i i hi
    obtain ⟨⟨central, source, mem'⟩, _, heq⟩ := Option.map_eq_some_iff.mp he
    cases heq
    have hactive := h.received_lt thread i (h.storage thread i hi)
    have hkept : SlotInv A params { s with allocator := s.allocator.setLocalHeap i source, memory := mem } :=
      h.of_onlyHeapAt (onlyHeapAt_setLocalHeap s.allocator i source) fun j hj => Option.some.inj hj ▸ hactive
    refine { hkept with storage := fun t j hj => ?_ }
    have hj : Function.update s.allocator.threadLocalStorage thread none t = some j := hj
    by_cases ht : t = thread
    · rw [ht, Function.update_self] at hj
      cases hj
    · rw [Function.update_of_ne ht] at hj
      exact h.storage t j hj

theorem SlotRun.inv (h : SlotRun A params s) : SlotInv A params s := by
  induction h with
  | create h =>
    obtain ⟨hmax, hpos, hcached, hactive, hstorage⟩ := create_eq_true h
    obtain ⟨hparams, halignment, hnew, huntouched⟩ := create_newHeaps h
    have hactive : _ = 0 := hactive
    have hstorage : _ = fun _ => none := hstorage
    refine ⟨hparams, halignment, hmax, ?_, hcached, ?_, ?_, ?_, ?_, by simp, by simp, ?_⟩
    · rw [hactive]
      exact hpos
    · rw [map_fst_heapsAt, hactive, max_eq_left (Nat.zero_le _)]
    · intro i heap hentry
      obtain ⟨hi, rfl⟩ := mem_heapsAt.mp hentry
      exact hnew i (List.mem_range.mp hi)
    · exact fun i heap hi _ => (mem_heapsAt.mp hi).2
    · exact fun i hi => huntouched i (le_trans (le_max_left ..) hi)
    · intro t i hi
      rw [hstorage] at hi
      cases hi
  | @allocate s hs call answers thread heap a₁ a₂ a mem₁ mem₂ mem ret central hcreated hget h ih =>
    have hget' := getThreadLocalHeap_of_created hcreated
    rw [hget] at hget'
    simp only [Option.some.injEq, Prod.mk.injEq] at hget'
    obtain ⟨rfl, rfl, rfl⟩ := hget'
    have hlookup := ih.getThreadLocalHeap hcreated
    refine hlookup.of_onlyHeapAt (onlyHeapAt_allocateFrom hget h) fun i hi => ?_
    refine hlookup.received_lt thread i (List.mem_append_right _ ?_)
    rw [hi]
    exact List.mem_singleton_self _
  | deallocate _ h ih => exact ih.of_onlyHeapAt (onlyHeapAt_deallocate h) fun i hi => owner_lt hi
  | exit _ h ih => exact ih.exit h

theorem SlotInv.nodup (h : SlotInv A params s) : (s.constructed.map Prod.fst).Nodup := by
  rw [h.constructed_eq]
  exact List.nodup_range

theorem SlotInv.mem_constructed {i : Nat} (h : SlotInv A params s) (hi : i < s.allocator.activeLocalHeapCount) :
    ∃ heap, (i, heap) ∈ s.constructed := by
  have hmem : i ∈ s.constructed.map Prod.fst := by
    rw [h.constructed_eq, List.mem_range]
    omega
  obtain ⟨⟨j, heap⟩, hentry, rfl⟩ := List.mem_map.mp hmem
  exact ⟨heap, hentry⟩

theorem SlotInv.destroyed (h : SlotInv A params s) :
    destroyHeaps A s.allocator s.memory = (s.constructed.map Prod.fst).foldlM
      (destroyAt A s.allocator.localHeaps) (s.allocator, s.memory) := by
  have hcount : s.allocator.getCreatedHeapCount =
      max s.allocator.cachedThreadLocalHeapCount s.allocator.activeLocalHeapCount := by
    rw [getCreatedHeapCount]
    split <;> omega
  rw [destroyHeaps, hcount, ← h.constructed_eq]
  exact destroyLocalHeaps_eq h.nodup fun _ _ => rfl

/-- A thread without a heap, for which there is a place left, is given the next one, and with it a
heap as its creation has left it. -/
theorem SlotInv.receives (h : SlotInv A params s)
    (hcreated : createCachedHeaps A (fun _ => answers) (constructedFor thread s.allocator) s.allocator
      s.memory = some (true, a₁, mem₁)) (had : Admitted thread s.allocator) :
    heapFor thread s.allocator = some s.allocator.activeLocalHeapCount ∧
    (s.allocator.activeLocalHeapCount, a₁.localHeaps s.allocator.activeLocalHeapCount) ∈
      s.constructed ++ heapsAt (constructedFor thread s.allocator) a₁ := by
  refine ⟨by rw [heapFor, if_pos had], ?_⟩
  obtain ⟨heaps, rfl, hothers, _⟩ := createCachedHeaps_constructedFor hcreated
  by_cases hlazy : s.allocator.cachedThreadLocalHeapCount ≤ s.allocator.activeLocalHeapCount
  · refine List.mem_append_right _ (mem_heapsAt.mpr ⟨?_, rfl⟩)
    rw [constructedFor, if_pos ⟨had, hlazy⟩]
    exact List.mem_singleton_self _
  · -- the place is one of those that were filled by `create`, and its heap has waited there
    have hmem : s.allocator.activeLocalHeapCount ∈ s.constructed.map Prod.fst := by
      rw [h.constructed_eq, List.mem_range]
      omega
    obtain ⟨⟨i, heap⟩, hentry, hi⟩ := List.mem_map.mp hmem
    dsimp only at hi
    subst hi
    refine List.mem_append_left _ ?_
    dsimp only
    rwa [hothers, h.waiting _ heap hentry le_rfl]
    rw [constructedFor, if_neg fun hc => hlazy hc.2]
    exact List.not_mem_nil

/-- Whatever the order in which threads come, they get heaps of their own, each constructed and
created once at a place inside the metadata buffer, where nothing was made before; a thread that
comes when the places are used up gets none and changes nothing; and what is destroyed, each heap
once, is what was constructed. -/
theorem heap_slots (h : SlotRun A params s) :
    (∀ thread thread' i, (thread, some i) ∈ s.received → (thread', some i) ∈ s.received →
      thread = thread') ∧
    (∀ thread i, (thread, some i) ∈ s.received → (s.constructed.map Prod.fst).count i = 1 ∧
      (∃ heap, (i, heap) ∈ s.constructed ∧ NewHeap A params heap) ∧
      (i + 1) * A.localHeapSize ≤ params.metadataBufferSize) ∧
    (∀ thread answers, s.allocator.threadLocalStorage thread = none →
      params.metadataBufferSize / A.localHeapSize ≤ s.allocator.activeLocalHeapCount + 1 →
      getThreadLocalHeap A answers thread s.allocator s.memory = some (none, s.allocator, s.memory)) ∧
    (∀ thread answers a₁ mem₁, createCachedHeaps A (fun _ => answers)
        (constructedFor thread s.allocator) s.allocator s.memory = some (true, a₁, mem₁) →
      s.allocator.activeLocalHeapCount + 1 < params.metadataBufferSize / A.localHeapSize →
      ∃ i, getThreadLocalHeap A answers thread s.allocator s.memory =
          some (some i, takePlace thread a₁, mem₁) ∧
        (s.allocator.threadLocalStorage thread = none →
          (i, a₁.localHeaps i) ∈ s.constructed ++ heapsAt (constructedFor thread s.allocator) a₁ ∧
          NewHeap A params (a₁.localHeaps i)) ∧
        (∀ j ∈ constructedFor thread s.allocator, s.allocator.localHeaps j = {} ∧
          SimpleHeapPow2.create A.localHeap params.localHeap params.arenaPageAlignment answers.request
            answers.queueMemory {} s.memory = some (true, a₁.localHeaps j, mem₁)) ∧
        ∀ j, j ∉ constructedFor thread s.allocator → a₁.localHeaps j = s.allocator.localHeaps j) ∧
    ((s.constructed.map Prod.fst).Nodup ∧ (∀ i heap, (i, heap) ∈ s.constructed → NewHeap A params heap) ∧
      ∀ i, i ∉ s.constructed.map Prod.fst → s.allocator.localHeaps i = {}) ∧
    destroyHeaps A s.allocator s.memory = (s.constructed.map Prod.fst).foldlM
      (destroyAt A s.allocator.localHeaps) (s.allocator, s.memory) := by
  have hinv := h.inv
  refine ⟨hinv.received_inj, fun thread i hi => ⟨?_, ?_, ?_⟩, ?_, ?_, ⟨hinv.nodup, hinv.created, ?_⟩,
    hinv.destroyed⟩
  · have hlt := hinv.received_lt thread i hi
    refine List.count_eq_one_of_mem hinv.nodup ?_
    rw [hinv.constructed_eq, List.mem_range]
    omega
  · obtain ⟨heap, hentry⟩ := hinv.mem_constructed (hinv.received_lt thread i hi)
    exact ⟨heap, hentry, hinv.created i heap hentry⟩
  · have hlt := hinv.received_lt thread i hi
    have hmax := hinv.active_lt
    rw [hinv.max_eq] at hmax
    calc (i + 1) * A.localHeapSize
        ≤ (params.metadataBufferSize / A.localHeapSize) * A.localHeapSize :=
          Nat.mul_le_mul_right _ (by omega)
      _ ≤ params.metadataBufferSize := Nat.div_mul_le_self ..
  · intro thread answers hstorage hfull
    rw [← hinv.max_eq] at hfull
    rw [ScalableAllocator.getThreadLocalHeap, hstorage]
    dsimp only
    rw [if_pos hfull]
  · intro thread answers a₁ mem₁ hcreated hroom
    rw [← hinv.max_eq] at hroom
    have hget := getThreadLocalHeap_of_created hcreated
    have hdue : ∀ j ∈ constructedFor thread s.allocator, s.allocator.localHeaps j = {} := by
      intro j hj
      rw [constructedFor] at hj
      split at hj
      · rename_i hlazy
        rw [List.mem_singleton.mp hj]
        exact hinv.untouched _ (max_le hlazy.2 le_rfl)
      · cases hj
    have hstep : (∀ j ∈ constructedFor thread s.allocator, s.allocator.localHeaps j = {} ∧
        SimpleHeapPow2.create A.localHeap params.localHeap params.arenaPageAlignment answers.request
          answers.queueMemory {} s.memory = some (true, a₁.localHeaps j, mem₁)) ∧
        ∀ j, j ∉ constructedFor thread s.allocator → a₁.localHeaps j = s.allocator.localHeaps j := by
      obtain ⟨heaps, rfl, hothers, hnew⟩ := createCachedHeaps_constructedFor hcreated
      rw [hinv.params_eq, hinv.alignment_eq] at hnew
      exact ⟨fun j hj => ⟨hdue j hj, hnew j hj⟩, hothers⟩
    cases hstorage : s.allocator.threadLocalStorage thread with
    | some i =>
      have had : ¬ Admitted thread s.allocator := fun had =>
        Option.some_ne_none i (hstorage.symm.trans had.1)
      rw [heapFor, if_neg had, hstorage] at hget
      exact ⟨i, hget, fun hnone => (by cases hnone), hstep⟩
    | none =>
      obtain ⟨hheap, hentry⟩ := hinv.receives hcreated ⟨hstorage, hroom⟩
      rw [hheap] at hget
      refine ⟨_, hget, fun _ => ⟨hentry, ?_⟩, hstep⟩
      have hlookup := hinv.getThreadLocalHeap hcreated
      refine hlookup.created s.allocator.activeLocalHeapCount _ ?_
      rwa [heapsAt, takePlace_localHeaps]
  · intro i hi
    rw [hinv.constructed_eq, List.mem_range] at hi
    exact hinv.untouched i (Nat.not_lt.mp hi)

end

def twoThreadAllocator : AllocatorType := { oneThreadAllocator with localHeapSize := 2700 }

def twoThreadParams : CreationParams :=
  { central := onePageEach
    localHeap := onePageEach
    arenaCapacity := 65536
    arenaPageAlignment := 4096
    metadataBufferSize := 8192 }

def createTwoThreads : Option (Bool × ScalableAllocator × Memory) :=
  create twoThreadAllocator twoThreadParams
    ⟨true, true, true, ⟨fun _ => 1048576, fun _ => true⟩, fun _ => oneThreadAnswers.heap⟩
    (setThreadLocalHeapCacheCount 1 {}) ⟨fun _ => 0, fun _ => {}, [], []⟩

def secondThreadAnswers : CallAnswers := ⟨⟨fun _ => 3145728, fun _ => true⟩, refusingArena⟩

def SlotState.allocate (A : AllocatorType) (answers : CallAnswers) (thread size : Nat) (s : SlotState) :
    Option SlotState :=
  match createCachedHeaps A (fun _ => answers.heap) (constructedFor thread s.allocator) s.allocator s.memory with
  | some (true, _, _) =>
    (getThreadLocalHeap A answers.heap thread s.allocator s.memory).bind fun g =>
      (ScalableAllocator.allocate A answers thread size s.allocator s.memory).map fun r =>
        ⟨r.2.2.1, r.2.2.2, s.constructed ++ heapsAt (constructedFor thread s.allocator) g.2.1,
          s.received ++ [(thread, g.1)]⟩
  | _ => none

theorem SlotRun.allocates {A : AllocatorType} {params : CreationParams} {answers : CallAnswers}
    {thread size : Nat} {s s' : SlotState} (hs : SlotRun A params s)
    (h : s.allocate A answers thread size = some s') : SlotRun A params s' := by
  rw [SlotState.allocate] at h
  split at h
  · rename_i hcreated
    obtain ⟨⟨heap, a₂, mem₂⟩, hget, h⟩ := Option.bind_eq_some_iff.mp h
    obtain ⟨⟨ret, central, a, mem⟩, hcall, rfl⟩ := Option.map_eq_some_iff.mp h
    exact hs.allocate hcreated hget hcall
  · cases h

/-- The first thread finds a heap that was made in advance, the second one has its heap made, and the
third one comes too late. -/
theorem heap_slots_of_three : ∃ s, SlotRun twoThreadAllocator twoThreadParams s ∧
    s.received = [(7, some 0), (8, some 1), (9, none)] ∧ s.constructed.map Prod.fst = [0, 1] ∧
    (∃ heap, (1, heap) ∈ s.constructed ∧ NewHeap twoThreadAllocator twoThreadParams heap) ∧
    (1 + 1) * twoThreadAllocator.localHeapSize ≤ twoThreadParams.metadataBufferSize ∧
    destroyHeaps twoThreadAllocator s.allocator s.memory =
      [0, 1].foldlM (destroyAt twoThreadAllocator s.allocator.localHeaps) (s.allocator, s.memory) := by
  have hrun : (createTwoThreads.bind fun r =>
      ((SlotState.allocate twoThreadAllocator secondThreadAnswers 7 16 ⟨r.2.1, r.2.2,
        heapsAt (List.range r.2.1.cachedThreadLocalHeapCount) r.2.1, []⟩).bind fun s =>
      (s.allocate twoThreadAllocator secondThreadAnswers 8 16).bind fun s =>
      s.allocate twoThreadAllocator secondThreadAnswers 9 16).map fun s =>
        (r.1, s.received, s.constructed.map Prod.fst)) =
      some (true, [(7, some 0), (8, some 1), (9, none)], [0, 1]) := by
    decide +kernel
  obtain ⟨⟨ok, a, mem⟩, hcreate, hrun⟩ := Option.bind_eq_some_iff.mp hrun
  obtain ⟨s, hcalls, heq⟩ := Option.map_eq_some_iff.mp hrun
  simp only [Prod.mk.injEq] at heq
  obtain ⟨rfl, hreceived, hplaces⟩ := heq
  obtain ⟨s₁, hfirst, hcalls⟩ := Option.bind_eq_some_iff.mp hcalls
  obtain ⟨s₂, hsecond, hthird⟩ := Option.bind_eq_some_iff.mp hcalls
  have h := (((SlotRun.create hcreate).allocates hfirst).allocates hsecond).allocates hthird
  obtain ⟨_, hslots, _, _, _, hdestroy⟩ := heap_slots h
  obtain ⟨_, hheap, hinside⟩ := hslots 8 1 (by simp [hreceived])
  rw [hplaces] at hdestroy
  exact ⟨s, h, hreceived, hplaces, hheap, hinside, hdestroy⟩

end Metamalloc.Allocator
